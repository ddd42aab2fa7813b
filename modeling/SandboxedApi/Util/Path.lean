import Mathlib.Data.List.Basic
import SandboxedApi.Lib.PathWalk

namespace SandboxedApi

/-- `absl::StripPrefix`. -/
def stripPrefix (s pre : List Char) : List Char :=
  if pre.isPrefixOf s then s.drop pre.length else s

/-- `IsAbsolutePath`. -/
def isAbsolutePath (path : List Char) : Bool :=
  !path.isEmpty && path.head? == some '/'

/-- `JoinPath`: the non-empty paths in order, with one slash where two meet. -/
def joinPath (paths : List (List Char)) : List Char :=
  paths.foldl (fun result path =>
    if path.isEmpty then result
    else if result.isEmpty then path
    else
      let comp := stripPrefix path ['/']
      if ['/'].isSuffixOf result then result ++ comp else result ++ '/' :: comp) []

example : joinPath ["/usr/".toList, "".toList, "/lib".toList, "x.so".toList] =
    "/usr/lib/x.so".toList := by decide

def cleanPathStep : Nat × List (List Char) → List Char → Nat × List (List Char)
  | (dotdotNum, parts), part =>
    if part = ['.', '.'] then
      if parts = [] then (dotdotNum + 1, parts) else (dotdotNum, parts.dropLast)
    else if part ≠ ['.'] then (dotdotNum, parts ++ [part])
    else (dotdotNum, parts)

/-- `CleanPath`: the non-empty parts between slashes, with `.` dropped and `..` taking back the
part before it; a relative path keeps the `..` that have nothing to take back. -/
def cleanPath (uncleanPath : List Char) : List Char :=
  let (dotdotNum, parts) :=
    ((uncleanPath.splitOn '/').filter (· ≠ [])).foldl cleanPathStep (0, [])
  if ['/'].isPrefixOf uncleanPath then
    if parts = [] then ['/'] else ['/'].intercalate ([] :: parts)
  else
    let parts := List.replicate dotdotNum ['.', '.'] ++ parts
    if parts = [] then ['.'] else ['/'].intercalate parts

example : cleanPath "/a/./b/../c//".toList = "/a/c".toList := by decide
example : cleanPath "../x/../..".toList = "../..".toList := by decide

def IsPathComponent (part : List Char) : Prop :=
  part ≠ [] ∧ part ≠ ['.'] ∧ part ≠ ['.', '.'] ∧ '/' ∉ part

instance (part : List Char) : Decidable (IsPathComponent part) :=
  inferInstanceAs (Decidable (_ ∧ _))

theorem mem_of_mem_splitOn {a c : Char} :
    ∀ {xs w : List Char}, w ∈ xs.splitOn a → c ∈ w → c ∈ xs ∧ c ≠ a
  | [], w, hw, hc => by simp [List.splitOn_nil] at hw; simp [hw] at hc
  | x :: xs, w, hw, hc => by
    rw [List.splitOn_cons_eq_if_modifyHead] at hw
    split_ifs at hw with hx
    · rcases List.mem_cons.mp hw with rfl | hw
      · cases hc
      · exact (mem_of_mem_splitOn hw hc).imp_left (List.mem_cons_of_mem _)
    · -- the first piece took `x` at its front
      obtain ⟨r, rs, hr⟩ := List.exists_cons_of_ne_nil (List.splitOn_ne_nil a xs)
      rw [hr, List.modifyHead_cons] at hw
      rcases List.mem_cons.mp hw with rfl | hw
      · rcases List.mem_cons.mp hc with rfl | hc
        · exact ⟨List.mem_cons_self, by simpa using hx⟩
        · exact (mem_of_mem_splitOn (hr ▸ List.mem_cons_self) hc).imp_left
            (List.mem_cons_of_mem _)
      · exact (mem_of_mem_splitOn (hr ▸ List.mem_cons_of_mem _ hw) hc).imp_left
          (List.mem_cons_of_mem _)

theorem mem_foldl_cleanPathStep {part : List Char} :
    ∀ (parts : List (List Char)) (acc : Nat × List (List Char)),
      part ∈ (parts.foldl cleanPathStep acc).2 →
        part ∈ acc.2 ∨ (part ∈ parts ∧ part ≠ ['.'] ∧ part ≠ ['.', '.'])
  | [], _, h => .inl h
  | p :: parts, (dotdotNum, kept), h => by
    rcases mem_foldl_cleanPathStep parts _ h with h | h
    · -- kept by this step: it was kept before, or it is `p`
      simp only [cleanPathStep] at h
      split_ifs at h with h₁ h₂ h₃
      · exact .inl h
      · exact .inl (List.dropLast_subset _ h)
      · rcases List.mem_append.mp h with h | h
        · exact .inl h
        · obtain rfl := List.mem_singleton.mp h
          exact .inr ⟨List.mem_cons_self, h₃, h₁⟩
      · exact .inl h
    · exact .inr ⟨List.mem_cons_of_mem _ h.1, h.2⟩

theorem cleanPath_kept {path part : List Char}
    (h : part ∈ (((path.splitOn '/').filter (· ≠ [])).foldl cleanPathStep (0, [])).2) :
    IsPathComponent part ∧ ∀ c ∈ part, c ∈ path := by
  rcases mem_foldl_cleanPathStep _ _ h with h | ⟨hmem, hdot, hdotdot⟩
  · cases h
  · obtain ⟨hsplit, hne⟩ := List.mem_filter.mp hmem
    have hchars : ∀ c ∈ part, c ∈ path ∧ c ≠ '/' := fun c hc => mem_of_mem_splitOn hsplit hc
    exact ⟨⟨by simpa using hne, hdot, hdotdot, fun hc => (hchars _ hc).2 rfl⟩,
      fun c hc => (hchars c hc).1⟩

theorem head?_intercalate {part : List Char} (parts : List (List Char)) (h : part ≠ []) :
    (['/'].intercalate (part :: parts)).head? = part.head? := by
  cases parts with
  | nil => simp
  | cons p ps =>
    obtain ⟨c, cs, rfl⟩ := List.exists_cons_of_ne_nil h
    simp [List.intercalate_cons_cons]

theorem isAbsolutePath_cleanPath {path : List Char} (h : isAbsolutePath (cleanPath path) = true) :
    ['/'].isPrefixOf path = true := by
  by_contra hrel
  simp only [cleanPath, hrel, if_false] at h
  split_ifs at h with hnil
  · simp [isAbsolutePath] at h
  · obtain ⟨part, parts, hparts⟩ := List.exists_cons_of_ne_nil hnil
    have hpart : part ≠ [] ∧ '/' ∉ part := by
      rcases List.mem_append.mp (hparts ▸ List.mem_cons_self : part ∈ _) with hdd | hk
      · obtain rfl := List.eq_of_mem_replicate hdd
        simp
      · obtain ⟨⟨hne, -, -, hslash⟩, -⟩ := cleanPath_kept hk
        exact ⟨hne, hslash⟩
    rw [hparts, isAbsolutePath, head?_intercalate parts hpart.1] at h
    obtain ⟨c, cs, rfl⟩ := List.exists_cons_of_ne_nil hpart.1
    have hc : c ≠ '/' := fun hc => hpart.2 (hc ▸ List.mem_cons_self)
    simp [hc] at h

theorem mem_splitOn_cleanPath {path part : List Char}
    (habs : isAbsolutePath (cleanPath path) = true) (hroot : cleanPath path ≠ ['/'])
    (h : part ∈ (stripPrefix (cleanPath path) ['/']).splitOn '/') :
    IsPathComponent part ∧ ∀ c ∈ part, c ∈ path := by
  have hstart := isAbsolutePath_cleanPath habs
  generalize hkept : (((path.splitOn '/').filter (· ≠ [])).foldl cleanPathStep (0, [])).2 = kept
    at *
  have hclean : cleanPath path = if kept = [] then ['/'] else ['/'].intercalate ([] :: kept) := by
    simp only [cleanPath, hstart, if_true, ← hkept]
  have hne : kept ≠ [] := fun hnil => hroot (by simp [hclean, hnil])
  obtain ⟨k, ks, rfl⟩ := List.exists_cons_of_ne_nil hne
  have hstrip : stripPrefix (cleanPath path) ['/'] = ['/'].intercalate (k :: ks) := by
    simp [hclean, stripPrefix, List.intercalate_cons_cons]
  have hkept' : ∀ p ∈ k :: ks, IsPathComponent p ∧ ∀ c ∈ p, c ∈ path :=
    fun p hp => cleanPath_kept (hkept ▸ hp)
  rw [hstrip, List.splitOn_intercalate '/' (fun p hp => (hkept' p hp).1.2.2.2)
    (List.cons_ne_nil _ _)] at h
  exact hkept' part h

open PathWalk

/-- `absl::StrSplit(path, '/', absl::SkipEmpty())`. -/
def pathParts (path : List Char) : List (List Char) := (path.splitOn '/').filter (· ≠ [])

def pathStep (part : List Char) : Step (List Char) :=
  if part = ['.', '.'] then .up else if part ≠ ['.'] then .down part else .stay

def renderPath (absolute : Bool) (place : Place (List Char)) : List Char :=
  if absolute then
    if place.downs = [] then ['/'] else ['/'].intercalate ([] :: place.downs)
  else
    let parts := List.replicate place.ups ['.', '.'] ++ place.downs
    if parts = [] then ['.'] else ['/'].intercalate parts

def IsCleanPath (path : List Char) : Prop :=
  path = ['/'] ∨ path = ['.'] ∨
  (∃ comps, comps ≠ [] ∧ (∀ c ∈ comps, IsPathComponent c) ∧
    path = '/' :: ['/'].intercalate comps) ∨
  (∃ ups comps, ups + comps.length ≠ 0 ∧ (∀ c ∈ comps, IsPathComponent c) ∧
    path = ['/'].intercalate (List.replicate ups ['.', '.'] ++ comps))

inductive Denotation where
  | fromRoot (downs : List (List Char))
  | fromBase (place : Place (List Char))
  deriving DecidableEq, Repr

def denotation (path : List Char) : Denotation :=
  if ['/'].isPrefixOf path then .fromRoot (rootWalk [] ((pathParts path).map pathStep))
  else .fromBase (walk Place.start ((pathParts path).map pathStep))

def IsCleanPlace (place : Place (List Char)) : Prop := ∀ d ∈ place.downs, IsPathComponent d

theorem cleanPathStep_eq (dotdotNum : Nat) (parts : List (List Char)) (part : List Char) :
    cleanPathStep (dotdotNum, parts) part =
      (((⟨dotdotNum, parts⟩ : Place (List Char)).step (pathStep part)).ups,
        ((⟨dotdotNum, parts⟩ : Place (List Char)).step (pathStep part)).downs) := by
  unfold cleanPathStep pathStep
  by_cases hdd : part = ['.', '.']
  · by_cases hnil : parts = []
    · simp [hdd, hnil, Place.step]
    · simp [hdd, hnil, Place.step, List.isEmpty_iff]
  · by_cases hdot : part = ['.']
    · simp [hdot, Place.step]
    · simp [hdd, hdot, Place.step]

theorem foldl_cleanPathStep (parts : List (List Char)) (dotdotNum : Nat) (kept : List (List Char)) :
    parts.foldl cleanPathStep (dotdotNum, kept) =
      ((walk ⟨dotdotNum, kept⟩ (parts.map pathStep)).ups,
        (walk ⟨dotdotNum, kept⟩ (parts.map pathStep)).downs) := by
  induction parts generalizing dotdotNum kept with
  | nil => rfl
  | cons part parts ih =>
    rw [List.foldl_cons, cleanPathStep_eq, ih, List.map_cons, walk_cons]

theorem cleanPath_eq (path : List Char) :
    cleanPath path =
      renderPath (['/'].isPrefixOf path) (walk Place.start ((pathParts path).map pathStep)) := by
  have hfold := foldl_cleanPathStep (pathParts path) 0 []
  unfold cleanPath
  rw [show ((path.splitOn '/').filter (· ≠ [])) = pathParts path from rfl, hfold]
  cases ['/'].isPrefixOf path <;> rfl

theorem clean_walk_pathParts (path : List Char) :
    IsCleanPlace (walk Place.start ((pathParts path).map pathStep)) := by
  intro d hd
  have hkept : d ∈ (((path.splitOn '/').filter (· ≠ [])).foldl cleanPathStep (0, [])).2 := by
    rw [show ((path.splitOn '/').filter (· ≠ [])) = pathParts path from rfl,
      foldl_cleanPathStep]
    exact hd
  exact (cleanPath_kept hkept).1

theorem isAbsolutePath_eq_isPrefixOf (path : List Char) :
    isAbsolutePath path = ['/'].isPrefixOf path := by
  cases path with
  | nil => rfl
  | cons c cs => simp [isAbsolutePath, List.isPrefixOf, eq_comm]

theorem pathParts_root : pathParts ['/'] = [] := by decide

theorem pathParts_dot : pathParts ['.'] = [['.']] := by decide

theorem pathStep_dotdot : pathStep ['.', '.'] = .up := rfl

theorem isPrefixOf_slash_cons {c : Char} (cs : List Char) (h : c ≠ '/') :
    ['/'].isPrefixOf (c :: cs) = false := by
  simp [List.isPrefixOf, Ne.symm h]

theorem pathStep_of_isPathComponent {part : List Char} (h : IsPathComponent part) :
    pathStep part = .down part := by
  obtain ⟨-, hdot, hdotdot, -⟩ := h
  simp [pathStep, hdot, hdotdot]

theorem intercalate_append_of_ne_nil {sep : List Char} {xs ys : List (List Char)} (hxs : xs ≠ [])
    (hys : ys ≠ []) : sep.intercalate (xs ++ ys) = sep.intercalate xs ++ sep ++ sep.intercalate ys := by
  induction xs with
  | nil => exact absurd rfl hxs
  | cons x xs ih =>
    cases xs with
    | nil =>
      obtain ⟨y, ys', rfl⟩ := List.exists_cons_of_ne_nil hys
      simp
    | cons x' xs' =>
      have hne : x' :: xs' ++ ys ≠ [] := by simp
      rw [List.cons_append, List.intercalate_cons_of_ne_nil hne, ih (List.cons_ne_nil _ _),
        List.intercalate_cons_of_ne_nil (List.cons_ne_nil x' xs')]
      simp only [List.append_assoc]

theorem pathParts_intercalate {parts : List (List Char)} (hne : parts ≠ [])
    (hparts : ∀ part ∈ parts, part ≠ [] ∧ '/' ∉ part) :
    pathParts (['/'].intercalate parts) = parts := by
  rw [pathParts, List.splitOn_intercalate '/' (fun part hp => (hparts part hp).2) hne]
  exact List.filter_eq_self.mpr fun part hp => by simpa using (hparts part hp).1

theorem pathParts_slash_intercalate {comps : List (List Char)}
    (hcomps : ∀ c ∈ comps, IsPathComponent c) :
    pathParts (['/'].intercalate ([] :: comps)) = comps := by
  have hsplit : (['/'].intercalate ([] :: comps)).splitOn '/' = [] :: comps :=
    List.splitOn_intercalate '/' (by
      intro part hp
      rcases List.mem_cons.mp hp with rfl | hp
      · simp
      · exact (hcomps part hp).2.2.2) (List.cons_ne_nil _ _)
  rw [pathParts, hsplit, List.filter_cons_of_neg (by simp)]
  exact List.filter_eq_self.mpr fun c hc => by simpa using (hcomps c hc).1

theorem map_pathStep_of_clean {comps : List (List Char)} (hcomps : ∀ c ∈ comps, IsPathComponent c) :
    comps.map pathStep = comps.map .down :=
  List.map_congr_left fun c hc => pathStep_of_isPathComponent (hcomps c hc)

section

variable {place : Place (List Char)}

theorem walk_renderPath (absolute : Bool) (hc : IsCleanPlace place) :
    walk Place.start ((pathParts (renderPath absolute place)).map pathStep) =
      if absolute then ⟨0, place.downs⟩ else place := by
  cases absolute with
  | true =>
    by_cases hnil : place.downs = []
    · simp only [renderPath, if_true, if_pos hnil, pathParts_root, List.map_nil, walk_nil]
      simp [Place.start, ← hnil]
    · simp only [renderPath, if_true, if_neg hnil, pathParts_slash_intercalate hc,
        map_pathStep_of_clean hc, walk_map_down]
      rfl
  | false =>
    by_cases hnil : List.replicate place.ups ['.', '.'] ++ place.downs = []
    · -- `.` stays at the start, which is where an empty place is
      have hups : place.ups = 0 := by simpa using (List.append_eq_nil_iff.mp hnil).1
      have hdowns : place.downs = [] := (List.append_eq_nil_iff.mp hnil).2
      simp only [renderPath, Bool.false_eq_true, if_false, if_pos hnil]
      have hplace : place = Place.start := by
        cases place
        simp_all [Place.start]
      rw [hplace, pathParts_dot]
      rfl
    · have hparts : ∀ part ∈ List.replicate place.ups ['.', '.'] ++ place.downs,
          part ≠ [] ∧ '/' ∉ part := by
        intro part hp
        rcases List.mem_append.mp hp with hp | hp
        · obtain rfl := List.eq_of_mem_replicate hp
          simp
        · exact ⟨(hc part hp).1, (hc part hp).2.2.2⟩
      simp only [renderPath, Bool.false_eq_true, if_false, if_neg hnil,
        pathParts_intercalate hnil hparts, List.map_append, List.map_replicate,
        map_pathStep_of_clean hc, pathStep_dotdot]
      exact walk_steps place

theorem isPrefixOf_renderPath (absolute : Bool) (hc : IsCleanPlace place) :
    ['/'].isPrefixOf (renderPath absolute place) = absolute := by
  cases absolute with
  | true =>
    by_cases hnil : place.downs = []
    · simp [renderPath, hnil]
    · obtain ⟨d, ds, hds⟩ := List.exists_cons_of_ne_nil hnil
      simp [renderPath, hds, List.intercalate_cons_cons]
  | false =>
    by_cases hnil : List.replicate place.ups ['.', '.'] ++ place.downs = []
    · simp only [renderPath, Bool.false_eq_true, if_false, if_pos hnil]
      decide
    · obtain ⟨part, parts, hparts⟩ := List.exists_cons_of_ne_nil hnil
      have hpart : part ≠ [] ∧ '/' ∉ part := by
        rcases List.mem_append.mp (hparts ▸ List.mem_cons_self : part ∈ _) with hdd | hk
        · obtain rfl := List.eq_of_mem_replicate hdd
          simp
        · exact ⟨(hc part hk).1, (hc part hk).2.2.2⟩
      obtain ⟨c, cs, rfl⟩ := List.exists_cons_of_ne_nil hpart.1
      have hc' : c ≠ '/' := fun h => hpart.2 (h ▸ List.mem_cons_self)
      simp only [renderPath, Bool.false_eq_true, if_false, hparts, List.intercalate_cons_cons_left]
      exact isPrefixOf_slash_cons _ hc'

theorem isAbsolutePath_renderPath (absolute : Bool) (hc : IsCleanPlace place) :
    isAbsolutePath (renderPath absolute place) = absolute := by
  rw [isAbsolutePath_eq_isPrefixOf, isPrefixOf_renderPath absolute hc]

theorem cleanPath_renderPath (absolute : Bool) (hc : IsCleanPlace place) :
    cleanPath (renderPath absolute place) = renderPath absolute place := by
  rw [cleanPath_eq, isPrefixOf_renderPath absolute hc, walk_renderPath absolute hc]
  cases absolute with
  | true => simp [renderPath]
  | false => rfl

theorem isCleanPath_renderPath (absolute : Bool) (hc : IsCleanPlace place) :
    IsCleanPath (renderPath absolute place) := by
  cases absolute with
  | true =>
    by_cases hnil : place.downs = []
    · exact .inl (by simp [renderPath, hnil])
    · refine .inr (.inr (.inl ⟨place.downs, hnil, hc, ?_⟩))
      simp [renderPath, hnil, List.intercalate_cons_of_ne_nil hnil]
  | false =>
    by_cases hnil : List.replicate place.ups ['.', '.'] ++ place.downs = []
    · exact .inr (.inl (by simp [renderPath, hnil]))
    · refine .inr (.inr (.inr ⟨place.ups, place.downs, ?_, hc, ?_⟩))
      · intro h0
        apply hnil
        have hups : place.ups = 0 := by omega
        have hdowns : place.downs = [] := List.length_eq_zero_iff.mp (by omega)
        simp [hups, hdowns]
      · simp [renderPath, hnil]

end

theorem IsCleanPath.exists_renderPath {path : List Char} (h : IsCleanPath path) :
    ∃ absolute, ∃ place : Place (List Char), IsCleanPlace place ∧ path = renderPath absolute place := by
  rcases h with rfl | rfl | ⟨comps, hne, hcomps, rfl⟩ | ⟨ups, comps, hne, hcomps, rfl⟩
  · exact ⟨true, ⟨0, []⟩, by simp [IsCleanPlace], rfl⟩
  · exact ⟨false, ⟨0, []⟩, by simp [IsCleanPlace], rfl⟩
  · refine ⟨true, ⟨0, comps⟩, hcomps, ?_⟩
    simp [renderPath, hne, List.intercalate_cons_of_ne_nil hne]
  · refine ⟨false, ⟨ups, comps⟩, hcomps, ?_⟩
    have hparts : List.replicate ups ['.', '.'] ++ comps ≠ [] := by
      intro h0
      obtain ⟨hups, hcomps'⟩ := List.append_eq_nil_iff.mp h0
      rw [List.replicate_eq_nil_iff] at hups
      simp [hups, hcomps'] at hne
    simp [renderPath, hparts]

section

variable (path : List Char)

theorem cleanPath_cleanPath : cleanPath (cleanPath path) = cleanPath path := by
  rw [cleanPath_eq path]
  exact cleanPath_renderPath _ (clean_walk_pathParts path)

theorem isCleanPath_cleanPath : IsCleanPath (cleanPath path) := by
  rw [cleanPath_eq path]
  exact isCleanPath_renderPath _ (clean_walk_pathParts path)

theorem isAbsolutePath_cleanPath_eq : isAbsolutePath (cleanPath path) = ['/'].isPrefixOf path := by
  rw [cleanPath_eq path]
  exact isAbsolutePath_renderPath _ (clean_walk_pathParts path)

theorem denotation_cleanPath : denotation (cleanPath path) = denotation path := by
  have hc := clean_walk_pathParts path
  have hstart : ['/'].isPrefixOf (cleanPath path) = ['/'].isPrefixOf path := by
    rw [cleanPath_eq path, isPrefixOf_renderPath _ hc]
  unfold denotation
  rw [hstart]
  cases habs : ['/'].isPrefixOf path with
  | true =>
    simp only [if_true]
    rw [rootWalk_nil, rootWalk_nil, cleanPath_eq path, habs, walk_renderPath true hc]
    rfl
  | false =>
    simp only [Bool.false_eq_true, if_false]
    rw [cleanPath_eq path, habs, walk_renderPath false hc]
    rfl

theorem cleanPath_eq_self_iff : cleanPath path = path ↔ IsCleanPath path := by
  constructor
  · intro h
    rw [← h]
    exact isCleanPath_cleanPath path
  · intro h
    obtain ⟨absolute, place, hc, rfl⟩ := h.exists_renderPath
    exact cleanPath_renderPath absolute hc

end

theorem pathParts_nil : pathParts [] = [] := rfl

theorem pathParts_append_slash (x y : List Char) :
    pathParts (x ++ '/' :: y) = pathParts x ++ pathParts y := by
  rw [pathParts, List.splitOn_append_cons_self, List.filter_append]
  rfl

theorem pathParts_slash_cons (y : List Char) : pathParts ('/' :: y) = pathParts y := by
  have h := pathParts_append_slash [] y
  rwa [List.nil_append, pathParts_nil, List.nil_append] at h

theorem pathParts_stripPrefix_slash (y : List Char) :
    pathParts (stripPrefix y ['/']) = pathParts y := by
  unfold stripPrefix
  split_ifs with h
  · obtain ⟨rest, rfl⟩ : ∃ rest, y = '/' :: rest := by
      cases y with
      | nil => exact absurd h (by decide)
      | cons c cs =>
        have hc : '/' = c := by simpa [List.isPrefixOf] using h
        exact ⟨cs, by rw [← hc]⟩
    rw [pathParts_slash_cons]
    rfl
  · rfl

theorem pathParts_append_of_isSuffixOf {x : List Char} (hx : ['/'].isSuffixOf x = true)
    (y : List Char) : pathParts (x ++ y) = pathParts x ++ pathParts y := by
  obtain ⟨x', rfl⟩ : ∃ x', x = x' ++ ['/'] := by
    have hsuffix : ['/'] <:+ x := List.isSuffixOf_iff_suffix.mp hx
    obtain ⟨x', hx'⟩ := hsuffix
    exact ⟨x', hx'.symm⟩
  have hend : pathParts (x' ++ ['/']) = pathParts x' := by
    simpa [pathParts_nil] using pathParts_append_slash x' []
  rw [List.append_assoc, List.singleton_append, pathParts_append_slash, hend]

def joinPathStep (result path : List Char) : List Char :=
  if path.isEmpty then result
  else if result.isEmpty then path
  else
    let comp := stripPrefix path ['/']
    if ['/'].isSuffixOf result then result ++ comp else result ++ '/' :: comp

theorem joinPath_eq (paths : List (List Char)) : joinPath paths = paths.foldl joinPathStep [] :=
  rfl

theorem pathParts_joinPathStep (result path : List Char) :
    pathParts (joinPathStep result path) = pathParts result ++ pathParts path := by
  unfold joinPathStep
  by_cases hpath : path.isEmpty
  · simp [List.isEmpty_iff.mp hpath, pathParts_nil]
  · by_cases hresult : result.isEmpty
    · simp [hpath, List.isEmpty_iff.mp hresult, pathParts_nil]
    · simp only [hpath, hresult, Bool.false_eq_true, if_false]
      split_ifs with hsuffix
      · rw [pathParts_append_of_isSuffixOf hsuffix, pathParts_stripPrefix_slash]
      · rw [pathParts_append_slash, pathParts_stripPrefix_slash]

theorem pathParts_foldl_joinPathStep (rest : List (List Char)) (result : List Char) :
    pathParts (rest.foldl joinPathStep result) = pathParts result ++ rest.flatMap pathParts := by
  induction rest generalizing result with
  | nil => simp
  | cons path rest ih =>
    rw [List.foldl_cons, ih, pathParts_joinPathStep, List.flatMap_cons, List.append_assoc]

theorem pathParts_joinPath (paths : List (List Char)) :
    pathParts (joinPath paths) = paths.flatMap pathParts := by
  rw [joinPath_eq, pathParts_foldl_joinPathStep, pathParts_nil, List.nil_append]

theorem prefix_joinPathStep {result : List Char} (hresult : result ≠ []) (path : List Char) :
    result <+: joinPathStep result path ∧ joinPathStep result path ≠ [] := by
  have hr : result.isEmpty = false := by simpa using hresult
  unfold joinPathStep
  by_cases hpath : path.isEmpty
  · simp only [hpath, if_true]
    exact ⟨List.prefix_refl _, hresult⟩
  · simp only [hpath, hr, Bool.false_eq_true, if_false]
    split_ifs
    · exact ⟨List.prefix_append _ _, by simp [hresult]⟩
    · exact ⟨List.prefix_append _ _, by simp [hresult]⟩

theorem prefix_foldl_joinPathStep (rest : List (List Char)) {result : List Char}
    (hresult : result ≠ []) : result <+: rest.foldl joinPathStep result := by
  induction rest generalizing result with
  | nil => exact List.prefix_refl result
  | cons path rest ih =>
    obtain ⟨hstart, hne⟩ := prefix_joinPathStep hresult path
    exact hstart.trans (ih hne)

theorem prefix_joinPath {first : List Char} (hfirst : first ≠ []) (rest : List (List Char)) :
    first <+: joinPath (first :: rest) := by
  have hstart : joinPathStep [] first = first := by
    have hfirst' : first.isEmpty = false := by simpa using hfirst
    simp [joinPathStep, hfirst']
  rw [joinPath_eq, List.foldl_cons, hstart]
  exact prefix_foldl_joinPathStep rest hfirst

theorem cleanPath_congr {x y : List Char} (hstart : ['/'].isPrefixOf x = ['/'].isPrefixOf y)
    (hparts : pathParts x = pathParts y) : cleanPath x = cleanPath y := by
  rw [cleanPath_eq, cleanPath_eq, hstart, hparts]

theorem isPrefixOf_slash_of_isPrefix {x y : List Char} (hx : x ≠ []) (h : x <+: y) :
    ['/'].isPrefixOf y = ['/'].isPrefixOf x := by
  obtain ⟨c, cs, rfl⟩ := List.exists_cons_of_ne_nil hx
  obtain ⟨t, rfl⟩ := h
  simp [List.isPrefixOf]

theorem isPrefixOf_joinPath {first : List Char} (hfirst : first ≠ []) (rest : List (List Char)) :
    ['/'].isPrefixOf (joinPath (first :: rest)) = ['/'].isPrefixOf first :=
  isPrefixOf_slash_of_isPrefix hfirst (prefix_joinPath hfirst rest)

theorem renderPath_true_congr {p q : Place (List Char)} (h : p.downs = q.downs) :
    renderPath true p = renderPath true q := by
  simp [renderPath, h]

theorem cleanPath_joinPath_cleanPath_right {x y : List Char} (hx : x ≠ [])
    (hy : ['/'].isPrefixOf y = false) :
    cleanPath (joinPath [x, cleanPath y]) = cleanPath (joinPath [x, y]) := by
  rw [cleanPath_eq (joinPath [x, cleanPath y]), cleanPath_eq (joinPath [x, y]),
    isPrefixOf_joinPath hx, isPrefixOf_joinPath hx]
  have hwalk : walk Place.start ((pathParts (cleanPath y)).map pathStep) =
      walk Place.start ((pathParts y).map pathStep) := by
    rw [cleanPath_eq y, hy, walk_renderPath false (clean_walk_pathParts y)]
    rfl
  congr 1
  simp only [pathParts_joinPath, List.flatMap_cons, List.flatMap_nil, List.append_nil,
    List.map_append, walk_append]
  rw [walk_eq_walk_steps _ ((pathParts (cleanPath y)).map pathStep), hwalk,
    ← walk_eq_walk_steps]

theorem cleanPath_joinPath_cleanPath_left {x : List Char} (hx : ['/'].isPrefixOf x = true)
    (y : List Char) : cleanPath (joinPath [cleanPath x, y]) = cleanPath (joinPath [x, y]) := by
  have hxne : x ≠ [] := by
    rintro rfl
    exact absurd hx (by decide)
  have hcx : isAbsolutePath (cleanPath x) = true := by rw [isAbsolutePath_cleanPath_eq, hx]
  have hcne : cleanPath x ≠ [] := by
    intro h
    rw [h] at hcx
    exact absurd hcx (by decide)
  have hcprefix : ['/'].isPrefixOf (cleanPath x) = true := by
    rwa [← isAbsolutePath_eq_isPrefixOf]
  rw [cleanPath_eq (joinPath [cleanPath x, y]), cleanPath_eq (joinPath [x, y]),
    isPrefixOf_joinPath hcne, isPrefixOf_joinPath hxne, hcprefix, hx]
  apply renderPath_true_congr
  simp only [pathParts_joinPath, List.flatMap_cons, List.flatMap_nil, List.append_nil,
    List.map_append, walk_append]
  rw [cleanPath_eq x, hx, walk_renderPath true (clean_walk_pathParts x), if_pos rfl]
  exact (rootWalk_eq_downs 0 _ _).symm.trans (rootWalk_eq_downs _ _ _)

theorem renderPath_true_append (ds es : List (List Char)) (u u' : Nat) :
    renderPath true ⟨u, ds ++ es⟩ = renderPath true ⟨u', ds⟩ ∨
      renderPath true ⟨u', ds⟩ ++ ['/'] <+: renderPath true ⟨u, ds ++ es⟩ ∨
      renderPath true ⟨u', ds⟩ = ['/'] := by
  by_cases hd : ds = []
  · exact .inr (.inr (by simp [renderPath, hd]))
  · by_cases he : es = []
    · exact .inl (by simp [renderPath, he])
    · refine .inr (.inl ⟨['/'].intercalate es, ?_⟩)
      have hde : ds ++ es ≠ [] := by simp [hd]
      simp only [renderPath, if_true, if_neg hd, if_neg hde,
        List.intercalate_cons_of_ne_nil hd, List.intercalate_cons_of_ne_nil hde,
        List.nil_append, List.append_assoc]
      rw [intercalate_append_of_ne_nil hd he]
      simp

end SandboxedApi
