import IsadoraAir.Releases.Manifest

/-!
# Release chains

Two implementations put a set of manifests in order: the application's
`build_chain` and the structural part of the updater's `load_chain`. Both
accept exactly the sets that form one line from a single bootstrap release.
-/

namespace IsadoraAir.Releases

open PointerLine

variable {successor : Dict String ReleaseManifest} {git : GitHistory} {entries : List ChainEntry}
  {ordered : List ChainedRelease} {items line : List ReleaseManifest} {manifests : ManifestSet}
  {trustedTip : String}

/-! ## The application -/

inductive ChainError where
  | noManifests
  | noBootstrap
  | manyBootstraps (ids : List String)
  | missingPredecessor (releaseId previous : String)
  | fork (previous releaseId other : String)
  | cycle (releaseId : String)
  | walkTooLong
  | unreachable (ids : List String)
  | bootstrapMinimum
  | unknownMinimum (releaseId minimum : String)
  | laterMinimum (releaseId minimum : String)
  deriving DecidableEq, Repr

/-- `repr` of a release id, whose pattern admits no quotes. -/
def quoted (s : String) : String := "'" ++ s ++ "'"

def quotedList (ids : List String) : String := "[" ++ ", ".intercalate (ids.map quoted) ++ "]"

def ChainError.message : ChainError → String
  | noManifests => "no release manifests found -- at least a bootstrap release is required"
  | noBootstrap =>
    "no bootstrap release found (every release has a non-null previous_release_id)"
  | manyBootstraps ids =>
    "more than one bootstrap release found: " ++ quotedList ids ++
      " -- the chain origin is ambiguous"
  | missingPredecessor releaseId previous =>
    "release " ++ quoted releaseId ++ " declares previous_release_id " ++ quoted previous ++
      ", which does not exist in the loaded set"
  | fork previous releaseId other =>
    "release " ++ quoted previous ++ " has two successors (" ++ quoted releaseId ++ " and " ++
      quoted other ++ ") -- the chain must be a single line, never a fork"
  | cycle releaseId => "cycle detected in release chain at " ++ quoted releaseId
  | walkTooLong => "cycle detected in release chain (walk exceeded total release count)"
  | unreachable ids =>
    "release(s) " ++ quotedList ids ++
      " are not reachable from the bootstrap release -- disconnected chain"
  | bootstrapMinimum => "bootstrap release cannot declare minimum_supported_release_id"
  | unknownMinimum releaseId minimum =>
    "release " ++ quoted releaseId ++ " declares unknown minimum_supported_release_id " ++
      quoted minimum
  | laterMinimum releaseId minimum =>
    "release " ++ quoted releaseId ++ " minimum_supported_release_id " ++ quoted minimum ++
      " must be an earlier release in the same chain"

/-- A release and its position, counted from the bootstrap. -/
structure ChainedRelease where
  manifest : ReleaseManifest
  index : ℕ
  deriving DecidableEq

def number (line : List ReleaseManifest) : List ChainedRelease :=
  line.zipIdx.map fun p => ⟨p.1, p.2⟩

def linkError : LinkFault ReleaseManifest → ChainError
  | .missing rel => .missingPredecessor rel.releaseId (rel.previousReleaseId.getD "")
  | .fork rel other =>
    .fork (rel.previousReleaseId.getD "") rel.releaseId other.releaseId

/-- The forward walk. `count` is the number of releases ordered so far; it is
compared with the size of the set after each step. -/
def walkForward (successor : Dict String ReleaseManifest) (limit count : ℕ) (seen : List String)
    (current : ReleaseManifest) : Except ChainError (List ReleaseManifest) :=
  match _h : successor.get? current.releaseId with
  | none => .ok []
  | some nxt =>
    if _hseen : nxt.releaseId ∈ seen then .error (.cycle nxt.releaseId)
    else if limit < count + 1 then .error .walkTooLong
    else do
      let rest ← walkForward successor limit (count + 1) (nxt.releaseId :: seen) nxt
      .ok (nxt :: rest)
  termination_by (successor.values.filter fun m => m.releaseId ∉ seen).length
  decreasing_by exact unseen_lt ReleaseManifest.releaseId (Dict.mem_values_of_get? _h) _hseen

def indexById (ordered : List ChainedRelease) (releaseId : String) : Option ℕ :=
  (ordered.find? fun item => item.manifest.releaseId = releaseId).map ChainedRelease.index

def checkMinimums (ordered : List ChainedRelease) : List ChainedRelease → Except ChainError Unit
  | [] => .ok ()
  | item :: rest =>
    match item.manifest.minimumSupportedReleaseId with
    | none => checkMinimums ordered rest
    | some minimum =>
      if item.manifest.isBootstrap then .error .bootstrapMinimum
      else match indexById ordered minimum with
        | none => .error (.unknownMinimum item.manifest.releaseId minimum)
        | some index =>
          if item.index ≤ index then .error (.laterMinimum item.manifest.releaseId minimum)
          else checkMinimums ordered rest

def sortedIds (ids : List String) : List String := ids.insertionSort (· ≤ ·)

def buildChain (manifests : ManifestSet) : Except ChainError (List ChainedRelease) :=
  if manifests.items = [] then .error .noManifests
  else match manifests.items.filter fun m => m.previousReleaseId = none with
    | [] => .error .noBootstrap
    | [bootstrap] => do
      let successor ← (link ReleaseManifest.releaseId ReleaseManifest.previousReleaseId
        manifests.items).mapError linkError
      let rest ← walkForward successor manifests.items.length 1 [bootstrap.releaseId] bootstrap
      let ordered := number (bootstrap :: rest)
      if ordered.length ≠ manifests.items.length then
        let seenIds := (bootstrap :: rest).map ReleaseManifest.releaseId
        .error (.unreachable (sortedIds
          ((manifests.items.map ReleaseManifest.releaseId).filter fun id => id ∉ seenIds)))
      else do
        checkMinimums ordered ordered
        .ok ordered
    | bootstraps =>
      .error (.manyBootstraps (sortedIds (bootstraps.map ReleaseManifest.releaseId)))

/-! ## The updater -/

structure ReleaseError where
  message : String
  deriving DecidableEq, Repr

/-- What both sides ask of the commit history. -/
structure GitHistory where
  introducingCommit : String → String → Option String
  commitExists : String → Bool
  isAncestor : String → String → Option Bool

structure ChainEntry where
  manifest : Manifest
  index : ℕ
  commit : String
  deriving DecidableEq

def releaseDir : String := "deploy/releases"

/-- From the loaded manifests to their order. -/
def orderManifests (manifests : TrustedManifestSet) : Except ReleaseError (List Manifest) :=
  if manifests.items = [] then .error ⟨"trusted branch contains no release manifests"⟩
  else match manifests.items.filter fun item => item.previousReleaseId = none with
    | [bootstrap] => do
      let successors ← (link Manifest.releaseId Manifest.previousReleaseId
        manifests.items).mapError fun _ =>
          ⟨"release chain has a missing predecessor or fork"⟩
      let rest ← (walk Manifest.releaseId successors [bootstrap.releaseId] bootstrap).mapError
        fun _ => ⟨"release chain contains a cycle"⟩
      if (bootstrap :: rest).length ≠ manifests.items.length then
        .error ⟨"release chain contains unreachable releases"⟩
      else .ok (bootstrap :: rest)
    | _ => .error ⟨"release chain must have exactly one bootstrap"⟩

def indexes (entries : List (Manifest × ℕ)) (releaseId : String) : Option ℕ :=
  (entries.find? fun entry => entry.1.releaseId = releaseId).map Prod.snd

def checkEntries (entries : List (Manifest × ℕ)) :
    List (Manifest × ℕ) → Except ReleaseError Unit
  | [] => .ok ()
  | (item, index) :: rest =>
    if item.minimumSupportedReleaseId.any fun minimum =>
        (indexes entries minimum).all fun found => index ≤ found then
      .error ⟨"release " ++ item.releaseId ++ " has an invalid minimum supported release"⟩
    else checkEntries entries rest

/-- The loop that gives every release its immutable commit. -/
def resolveEntries (git : GitHistory) (trustedTip : String) :
    List ChainEntry → List (Manifest × ℕ) → Except ReleaseError (List ChainEntry)
  | entries, [] => .ok entries
  | entries, (item, index) :: rest =>
    let commit := if index = 0 then item.bootstrapCommit
      else git.introducingCommit (releaseDir ++ "/" ++ item.releaseId ++ ".json") trustedTip
    match commit.filter fun c =>
        c ≠ "" && git.commitExists c && git.isAncestor c trustedTip == some true with
    | none => .error ⟨"release " ++ item.releaseId ++
        " has no unique immutable commit on the trusted branch"⟩
    | some commit =>
      match entries.find? fun entry => entry.commit = commit with
      | some owner => .error ⟨"releases " ++ owner.manifest.releaseId ++ " and " ++
          item.releaseId ++ " share an introducing commit"⟩
      | none => resolveEntries git trustedTip (entries ++ [⟨item, index, commit⟩]) rest

/-- `load_chain` once the manifest files have been read. -/
def loadChain (git : GitHistory) (trustedTip : String)
    (manifests : TrustedManifestSet) : Except ReleaseError (List ChainEntry) := do
  let ordered ← orderManifests manifests
  let entries ← resolveEntries git trustedTip [] ordered.zipIdx
  let indexed := entries.map fun entry => (entry.manifest, entry.index)
  checkEntries indexed indexed
  .ok entries

/-- The checks of `load_chain` that look at the manifests only. -/
def structuralChain (manifests : TrustedManifestSet) : Except ReleaseError (List Manifest) := do
  let ordered ← orderManifests manifests
  checkEntries ordered.zipIdx ordered.zipIdx
  .ok ordered

/-! ## The line both look for -/

/-- Every declared minimum is the identity of a strictly earlier item. -/
def MinimumsEarlier {α : Type} (ident : α → String) (minimum : α → Option String)
    (line : List α) : Prop :=
  ∀ i m, (line)[i]? = some m → ∀ k, minimum m = some k → k ∈ (line.take i).map ident

/-- One line from the only bootstrap with every minimum strictly earlier. -/
structure IsReleaseLine (items line : List ReleaseManifest) : Prop where
  isLine : IsLine ReleaseManifest.releaseId ReleaseManifest.previousReleaseId items line
  minimum : MinimumsEarlier ReleaseManifest.releaseId ReleaseManifest.minimumSupportedReleaseId
    line

/-- The same of the updater's manifests. -/
structure IsTrustedLine (items line : List Manifest) : Prop where
  isLine : IsLine Manifest.releaseId Manifest.previousReleaseId items line
  minimum : MinimumsEarlier Manifest.releaseId Manifest.minimumSupportedReleaseId line

theorem IsReleaseLine.of_perm {items' : List ReleaseManifest}
    (h : IsReleaseLine items line) (hperm : items'.Perm items) : IsReleaseLine items' line :=
  ⟨h.isLine.of_perm hperm, h.minimum⟩

theorem mem_number {item : ChainedRelease} :
    item ∈ number line ↔ (line)[item.index]? = some item.manifest := by
  obtain ⟨m, i⟩ := item
  simp only [number, List.mem_map, Prod.exists, ChainedRelease.mk.injEq]
  constructor
  · rintro ⟨m, i, hmem, rfl, rfl⟩
    exact List.mem_zipIdx_iff_getElem?.mp hmem
  · exact fun h => ⟨m, i, List.mem_zipIdx_iff_getElem?.mpr h, rfl, rfl⟩

theorem map_manifest_number (line : List ReleaseManifest) :
    (number line).map ChainedRelease.manifest = line := by
  rw [number, List.map_map]
  exact List.zipIdx_map_fst 0 line

theorem indexById_number (line : List ReleaseManifest) (k : String) :
    indexById (number line) k = line.findIdx? fun m => m.releaseId = k := by
  rw [← find?_zipIdx, indexById, number, List.find?_map, Option.map_map]
  rfl

/-! ### The application's check -/

theorem checkMinimums_ok_iff {items : List ChainedRelease} :
    checkMinimums ordered items = .ok () ↔
      ∀ item ∈ items, ∀ k, item.manifest.minimumSupportedReleaseId = some k →
        item.manifest.isBootstrap = false ∧
          ∃ j, indexById ordered k = some j ∧ j < item.index := by
  induction items with
  | nil => simp [checkMinimums]
  | cons item rest ih =>
    rw [List.forall_mem_cons, ← ih, checkMinimums]
    cases hmin : item.manifest.minimumSupportedReleaseId with
    | none => simp
    | some k =>
      cases hboot : item.manifest.isBootstrap with
      | true => simp
      | false =>
        cases hindex : indexById ordered k with
        | none => simp [hindex]
        | some j =>
          by_cases hle : item.index ≤ j
          · simp [hle, hindex]
          · have hlt : j < item.index := by omega
            simp [hle, hlt, hindex]

/-- On a line the two checks of a minimum come down to its position. -/
theorem checkMinimums_number_iff
    (h : IsLine ReleaseManifest.releaseId ReleaseManifest.previousReleaseId items line) :
    checkMinimums (number line) (number line) = .ok () ↔ IsReleaseLine items line := by
  rw [checkMinimums_ok_iff]
  constructor
  · intro hall
    refine ⟨h, fun i m hm k hk => ?_⟩
    obtain ⟨-, hearlier⟩ := hall ⟨m, i⟩ (mem_number.mpr hm) k hk
    rw [indexById_number] at hearlier
    exact findIdx?_lt_iff.mp hearlier
  · intro hline item hitem k hk
    have hget := mem_number.mp hitem
    have hmem := hline.minimum item.index item.manifest hget k hk
    rw [indexById_number]
    refine ⟨?_, findIdx?_lt_iff.mpr hmem⟩
    obtain ⟨first, rest, rfl, -⟩ := h.head
    cases hi : item.index with
    | zero => simp [hi] at hmem
    | succ n =>
      rw [hi, List.getElem?_cons_succ] at hget
      obtain ⟨x, -, hx⟩ := exists_followed _ _ h.chain (List.mem_of_getElem? hget)
      rw [Follows] at hx
      simp [ReleaseManifest.isBootstrap, hx]

/-- The bound on the walk never cuts it short. -/
theorem walkForward_eq
    (hentry : ∀ p x, successor.get? p = some x ↔ x ∈ items ∧ x.previousReleaseId = some p)
    {seen : List String} (current : ReleaseManifest) (hnodup : seen.Nodup)
    (hseen : seen ⊆ items.map ReleaseManifest.releaseId) :
    walkForward successor items.length seen.length seen current =
      (walk ReleaseManifest.releaseId successor seen current).mapError
        fun m => .cycle m.releaseId := by
  induction seen, current using walk.induct ReleaseManifest.releaseId successor with
  | case1 seen current hnone =>
    rw [walk_of_none _ hnone, walkForward]
    split
    · rfl
    · rename_i nxt hnxt
      rw [hnone] at hnxt
      cases hnxt
  | case2 seen current next hnext hmem =>
    rw [walk_of_some _ hnext, if_pos hmem, walkForward]
    split
    · rename_i hnone
      rw [hnext] at hnone
      cases hnone
    · rename_i nxt hnxt
      rw [hnext] at hnxt
      cases hnxt
      rw [dif_pos hmem]
      rfl
  | case3 seen current next hnext hmem ih =>
    have hitem := ((hentry _ _).mp hnext).1
    have hnodup' : (next.releaseId :: seen).Nodup := List.nodup_cons.mpr ⟨hmem, hnodup⟩
    have hseen' : next.releaseId :: seen ⊆ items.map ReleaseManifest.releaseId :=
      List.cons_subset.mpr ⟨List.mem_map_of_mem hitem, hseen⟩
    have hlength : seen.length + 1 ≤ items.length := by
      have := (hnodup'.subperm hseen').length_le
      simpa using this
    have hwalk := ih hnodup' hseen'
    rw [List.length_cons] at hwalk
    rw [walk_of_some _ hnext, if_neg hmem, walkForward]
    split
    · rename_i hnone
      rw [hnext] at hnone
      cases hnone
    · rename_i nxt hnxt
      rw [hnext] at hnxt
      cases hnxt
      rw [dif_neg hmem, if_neg (by omega), hwalk]
      cases walk ReleaseManifest.releaseId successor (next.releaseId :: seen) next <;> rfl

/-- The walk from the bootstrap, where one release has been ordered. -/
theorem walkForward_bootstrap {bootstrap : ReleaseManifest}
    (hentry : ∀ p x, successor.get? p = some x ↔
      x ∈ manifests.items ∧ x.previousReleaseId = some p)
    (hmem : bootstrap ∈ manifests.items) :
    walkForward successor manifests.items.length 1 [bootstrap.releaseId] bootstrap =
      (walk ReleaseManifest.releaseId successor [bootstrap.releaseId] bootstrap).mapError
        fun m => .cycle m.releaseId := by
  have hseen : [bootstrap.releaseId] ⊆ manifests.items.map ReleaseManifest.releaseId :=
    List.cons_subset.mpr ⟨List.mem_map_of_mem hmem, List.nil_subset _⟩
  exact walkForward_eq hentry bootstrap (List.nodup_singleton _) hseen

/-- The application's chain is the line, numbered from the bootstrap. -/
theorem buildChain_ok_iff :
    buildChain manifests = .ok ordered ↔
      ∃ line, IsReleaseLine manifests.items line ∧ ordered = number line := by
  constructor
  · intro h
    unfold buildChain at h
    split_ifs at h
    split at h
    · cases h
    · rename_i bootstrap hboot
      obtain ⟨successor, hlink, h⟩ := bind_eq_ok.mp h
      have hentry := link_entry _ (mapError_eq_ok.mp hlink)
      obtain ⟨rest, hwalk, h⟩ := bind_eq_ok.mp h
      have hmem : bootstrap ∈ manifests.items ∧ bootstrap.previousReleaseId = none := by
        have : bootstrap ∈ manifests.items.filter fun m => m.previousReleaseId = none := by
          rw [hboot]
          exact List.mem_singleton_self _
        simpa using List.mem_filter.mp this
      rw [walkForward_bootstrap hentry hmem.1] at hwalk
      simp only [number, List.length_map, List.length_zipIdx] at h
      split_ifs at h with hlength
      obtain ⟨_, hcheck, h⟩ := bind_eq_ok.mp h
      cases h
      have hline := isLine_of_walk hentry hmem.1 hmem.2 (mapError_eq_ok.mp hwalk)
        (not_not.mp hlength)
      exact ⟨bootstrap :: rest, (checkMinimums_number_iff hline).mp hcheck, rfl⟩
    · cases h
  · rintro ⟨line, hline, rfl⟩
    obtain ⟨bootstrap, rest, rfl, hboot⟩ := hline.isLine.filter_head
    obtain ⟨successor, hlink⟩ := link_of_isLine _ hline.isLine manifests.ids
    have hentry := link_entry _ hlink
    have hbootItem : bootstrap ∈ manifests.items :=
      hline.isLine.perm.mem_iff.mpr List.mem_cons_self
    have hwalk : walkForward successor manifests.items.length 1 [bootstrap.releaseId] bootstrap =
        .ok rest := by
      have hfound : walk ReleaseManifest.releaseId successor [bootstrap.releaseId] bootstrap =
          .ok rest :=
        walk_of_isLine hline.isLine manifests.ids hentry (List.nil_append _).symm
          (fun _ => Iff.rfl)
      rw [walkForward_bootstrap hentry hbootItem, hfound]
      rfl
    have hlength : (bootstrap :: rest).length = manifests.items.length :=
      hline.isLine.perm.length_eq.symm
    have hne : manifests.items ≠ [] := List.ne_nil_of_mem hbootItem
    have hcheck := (checkMinimums_number_iff hline.isLine).mpr hline
    have hnumber : (number (bootstrap :: rest)).length = manifests.items.length := by
      simpa [number] using hlength
    simp only [buildChain, if_neg hne, hboot]
    refine bind_eq_ok.mpr ⟨successor, mapError_eq_ok.mpr hlink, ?_⟩
    refine bind_eq_ok.mpr ⟨rest, hwalk, ?_⟩
    simp only [hnumber, ne_eq, not_true_eq_false, if_false]
    exact bind_eq_ok.mpr ⟨(), hcheck, rfl⟩

/-! ### The updater's check -/

theorem checkEntries_ok_iff {entries items : List (Manifest × ℕ)} :
    checkEntries entries items = .ok () ↔
      ∀ item ∈ items, ∀ k, item.1.minimumSupportedReleaseId = some k →
        ∃ j, indexes entries k = some j ∧ j < item.2 := by
  induction items with
  | nil => simp [checkEntries]
  | cons item rest ih =>
    obtain ⟨m, i⟩ := item
    rw [List.forall_mem_cons, ← ih, checkEntries]
    cases hmin : m.minimumSupportedReleaseId with
    | none => simp
    | some k =>
      cases hindex : indexes entries k with
      | none => simp [hindex]
      | some j =>
        by_cases hle : i ≤ j
        · simp [hle, hindex]
        · have hlt : j < i := by omega
          simp [hle, hlt, hindex]

theorem checkEntries_zipIdx_iff {line : List Manifest} :
    checkEntries line.zipIdx line.zipIdx = .ok () ↔
      MinimumsEarlier Manifest.releaseId Manifest.minimumSupportedReleaseId line := by
  have hindexes : ∀ k, indexes line.zipIdx k = line.findIdx? fun m => m.releaseId = k :=
    fun k => find?_zipIdx line k
  rw [checkEntries_ok_iff]
  constructor
  · intro hall i m hm k hk
    have hearlier := hall (m, i) (List.mem_zipIdx_iff_getElem?.mpr hm) k hk
    rw [hindexes] at hearlier
    exact findIdx?_lt_iff.mp hearlier
  · intro h item hitem k hk
    rw [hindexes]
    exact findIdx?_lt_iff.mpr (h item.2 item.1 (List.mem_zipIdx_iff_getElem?.mp hitem) k hk)

theorem orderManifests_ok_iff {manifests : TrustedManifestSet} {ordered : List Manifest} :
    orderManifests manifests = .ok ordered ↔
      IsLine Manifest.releaseId Manifest.previousReleaseId manifests.items ordered := by
  constructor
  · intro h
    unfold orderManifests at h
    split_ifs at h
    split at h
    · rename_i bootstrap hboot
      obtain ⟨successors, hlink, h⟩ := bind_eq_ok.mp h
      have hentry := link_entry _ (mapError_eq_ok.mp hlink)
      obtain ⟨rest, hwalk, h⟩ := bind_eq_ok.mp h
      split_ifs at h with hlength
      cases h
      have hmem : bootstrap ∈ manifests.items ∧ bootstrap.previousReleaseId = none := by
        have : bootstrap ∈ manifests.items.filter fun m => m.previousReleaseId = none := by
          rw [hboot]
          exact List.mem_singleton_self _
        simpa using List.mem_filter.mp this
      exact isLine_of_walk hentry hmem.1 hmem.2 (mapError_eq_ok.mp hwalk) (not_not.mp hlength)
    · cases h
  · intro hline
    obtain ⟨bootstrap, rest, rfl, hboot⟩ := hline.filter_head
    obtain ⟨successors, hlink⟩ := link_of_isLine _ hline manifests.ids
    have hentry := link_entry _ hlink
    have hwalk : walk Manifest.releaseId successors [bootstrap.releaseId] bootstrap = .ok rest :=
      walk_of_isLine hline manifests.ids hentry (List.nil_append _).symm (fun _ => Iff.rfl)
    have hlength : (bootstrap :: rest).length = manifests.items.length := hline.perm.length_eq.symm
    have hne : manifests.items ≠ [] :=
      List.ne_nil_of_mem (hline.perm.mem_iff.mpr List.mem_cons_self)
    simp only [orderManifests, if_neg hne, hboot]
    refine bind_eq_ok.mpr ⟨successors, mapError_eq_ok.mpr hlink, ?_⟩
    refine bind_eq_ok.mpr ⟨rest, mapError_eq_ok.mpr hwalk, ?_⟩
    rw [if_neg (not_not.mpr hlength)]

theorem structuralChain_ok_iff {manifests : TrustedManifestSet} {ordered : List Manifest} :
    structuralChain manifests = .ok ordered ↔ IsTrustedLine manifests.items ordered := by
  constructor
  · intro h
    obtain ⟨line, hline, h⟩ := bind_eq_ok.mp h
    obtain ⟨_, hcheck, h⟩ := bind_eq_ok.mp h
    cases h
    exact ⟨orderManifests_ok_iff.mp hline, checkEntries_zipIdx_iff.mp hcheck⟩
  · rintro ⟨hline, hminimum⟩
    refine bind_eq_ok.mpr ⟨ordered, orderManifests_ok_iff.mpr hline, ?_⟩
    exact bind_eq_ok.mpr ⟨(), checkEntries_zipIdx_iff.mpr hminimum, rfl⟩

/-- The entries of a resolved chain are its manifests in their order. -/
theorem resolveEntries_ok {result : List ChainEntry} {items : List (Manifest × ℕ)}
    (h : resolveEntries git trustedTip entries items = .ok result) :
    result.map (fun e => (e.manifest, e.index)) =
      entries.map (fun e => (e.manifest, e.index)) ++ items := by
  induction items generalizing entries with
  | nil => cases h; simp
  | cons item rest ih =>
    obtain ⟨m, i⟩ := item
    simp only [resolveEntries] at h
    split at h
    · cases h
    · split at h
      · cases h
      · rw [ih h]
        simp

/-- What `load_chain` returns has passed the structural check. -/
theorem structuralChain_of_loadChain {manifests : TrustedManifestSet}
    (h : loadChain git trustedTip manifests = .ok entries) :
    structuralChain manifests = .ok (entries.map ChainEntry.manifest) := by
  obtain ⟨ordered, hordered, h⟩ := bind_eq_ok.mp h
  obtain ⟨found, hfound, h⟩ := bind_eq_ok.mp h
  obtain ⟨_, hcheck, h⟩ := bind_eq_ok.mp h
  cases h
  have hentries := resolveEntries_ok hfound
  rw [List.map_nil, List.nil_append] at hentries
  rw [hentries] at hcheck
  have hmanifests : entries.map ChainEntry.manifest = ordered := by
    have := congrArg (List.map Prod.fst) hentries
    rw [List.map_map, List.zipIdx_map_fst] at this
    exact this
  rw [hmanifests]
  exact structuralChain_ok_iff.mpr
    ⟨orderManifests_ok_iff.mp hordered, checkEntries_zipIdx_iff.mp hcheck⟩

theorem isTrustedLine_map_iff (hperm : items.Perm line) :
    IsTrustedLine (items.map ReleaseManifest.onUpdater) (line.map ReleaseManifest.onUpdater) ↔
      IsReleaseLine items line := by
  have hminimum : MinimumsEarlier Manifest.releaseId Manifest.minimumSupportedReleaseId
      (line.map ReleaseManifest.onUpdater) ↔ MinimumsEarlier ReleaseManifest.releaseId
        ReleaseManifest.minimumSupportedReleaseId line := by
    constructor
    · intro h i m hm k hk
      have := h i m.onUpdater (by rw [List.getElem?_map, hm]; rfl) k hk
      rwa [← List.map_take, List.map_map] at this
    · intro h i m hm k hk
      rw [List.getElem?_map] at hm
      obtain ⟨m', hget, rfl⟩ := Option.map_eq_some_iff.mp hm
      rw [← List.map_take, List.map_map]
      exact h i m' hget k hk
  have hline : IsLine Manifest.releaseId Manifest.previousReleaseId
      (items.map ReleaseManifest.onUpdater) (line.map ReleaseManifest.onUpdater) ↔
        IsLine ReleaseManifest.releaseId ReleaseManifest.previousReleaseId items line :=
    IsLine.map_iff hperm
  constructor
  · exact fun h => ⟨hline.mp h.isLine, hminimum.mp h.minimum⟩
  · exact fun h => ⟨hline.mpr h.isLine, hminimum.mpr h.minimum⟩

/-- On the same manifest files the two checks accept alike. -/
theorem structuralChain_iff_buildChain {trusted : TrustedManifestSet}
    (hperm : trusted.items.Perm (manifests.items.map ReleaseManifest.onUpdater))
    {result : List Manifest} :
    structuralChain trusted = .ok result ↔ ∃ ordered, buildChain manifests = .ok ordered ∧
      result = ordered.map fun item => item.manifest.onUpdater := by
  rw [structuralChain_ok_iff]
  constructor
  · intro h
    have hresult : result.Perm (manifests.items.map ReleaseManifest.onUpdater) :=
      h.isLine.perm.symm.trans hperm
    have hcomp := List.eq_map_comp_perm ReleaseManifest.onUpdater
    obtain ⟨line, hline, hperm'⟩ : ∃ line : List ReleaseManifest,
        result = line.map ReleaseManifest.onUpdater ∧ line.Perm manifests.items :=
      (congrFun (congrFun hcomp result) manifests.items).mpr hresult
    subst hline
    have hmapped : IsTrustedLine (manifests.items.map ReleaseManifest.onUpdater)
        (line.map ReleaseManifest.onUpdater) :=
      ⟨h.isLine.of_perm hperm.symm, h.minimum⟩
    have hrelease := (isTrustedLine_map_iff hperm'.symm).mp hmapped
    refine ⟨number line, buildChain_ok_iff.mpr ⟨line, hrelease, rfl⟩, ?_⟩
    conv_lhs => rw [← map_manifest_number line, List.map_map]
    rfl
  · rintro ⟨ordered, hordered, rfl⟩
    obtain ⟨line, hline, rfl⟩ := buildChain_ok_iff.mp hordered
    have hmapped := (isTrustedLine_map_iff hline.isLine.perm).mpr hline
    have heq : (number line).map (fun item => item.manifest.onUpdater) =
        line.map ReleaseManifest.onUpdater := by
      conv_rhs => rw [← map_manifest_number line, List.map_map]
      rfl
    rw [heq]
    exact ⟨hmapped.isLine.of_perm hperm, hmapped.minimum⟩

/-- Both implementations accept a set of manifests exactly when it forms one
line, return that line, and do not depend on the order they were given. -/
theorem buildChain_is_the_line (manifests : ManifestSet) :
    (∀ ordered, buildChain manifests = .ok ordered ↔
      ∃ line, IsReleaseLine manifests.items line ∧ ordered = number line) ∧
    (∀ other : ManifestSet, other.items.Perm manifests.items → ∀ ordered,
      buildChain other = .ok ordered ↔ buildChain manifests = .ok ordered) ∧
    ∀ trusted : TrustedManifestSet,
      trusted.items.Perm (manifests.items.map ReleaseManifest.onUpdater) → ∀ result,
        structuralChain trusted = .ok result ↔ ∃ ordered, buildChain manifests = .ok ordered ∧
          result = ordered.map fun item => item.manifest.onUpdater := by
  refine ⟨fun ordered => buildChain_ok_iff, fun other hperm ordered => ?_,
    fun trusted hperm result => structuralChain_iff_buildChain hperm⟩
  rw [buildChain_ok_iff, buildChain_ok_iff]
  constructor
  · rintro ⟨line, hline, rfl⟩
    exact ⟨line, hline.of_perm hperm.symm, rfl⟩
  · rintro ⟨line, hline, rfl⟩
    exact ⟨line, hline.of_perm hperm, rfl⟩

/-- A release that declares nothing but its place in the chain. -/
def sampleRelease (releaseId : String) (previous minimum : Option String) : ReleaseManifest where
  schemaVersion := 1
  releaseId := releaseId
  previousReleaseId := previous
  bootstrapCommit := if previous = none then some "0000" else none
  minimumUpdaterProtocolVersion := 1
  summary := ""
  migrationsRequired := []
  migrationCompatibility := none
  pythonRequirementsChanged := false
  requirementsSha256 := none
  aptPackagesNew := []
  systemdUnitsChanged := []
  systemdUnitsNewRequired := []
  systemdUnitsNewOptional := []
  systemdUnitsRemovedOrRenamed := []
  collectstaticRequired := false
  servicesRequiringRestart := []
  nginxChanged := false
  runtimeComponentsChanged := false
  minimumSupportedReleaseId := minimum
  manualBootstrapRequired := false
  protectedRuntime := none
  protocol_pos := le_refl 1

def sampleBootstrap : ReleaseManifest := sampleRelease "r0001" none none
def sampleSecond : ReleaseManifest := sampleRelease "r0002" (some "r0001") (some "r0001")

theorem sampleLine :
    IsReleaseLine [sampleSecond, sampleBootstrap] [sampleBootstrap, sampleSecond] := by
  refine ⟨⟨List.Perm.swap _ _ _, ⟨_, _, rfl, rfl⟩, ?_⟩, ?_⟩
  · exact List.isChain_cons_cons.mpr ⟨rfl, List.isChain_singleton _⟩
  · intro i m hm k hk
    match i, hm with
    | 0, rfl => cases hk
    | 1, rfl =>
      cases hk
      decide

theorem buildChain_is_the_line_sample :
    ∃ ordered, buildChain ⟨[sampleSecond, sampleBootstrap], by decide⟩ = .ok ordered ∧
      buildChain ⟨[sampleBootstrap, sampleSecond], by decide⟩ = .ok ordered ∧
      structuralChain ⟨[sampleBootstrap.onUpdater, sampleSecond.onUpdater], by decide⟩ =
        .ok (ordered.map fun item => item.manifest.onUpdater) := by
  have hmain := buildChain_is_the_line ⟨[sampleSecond, sampleBootstrap], by decide⟩
  have hbuild := (hmain.1 _).mpr ⟨_, sampleLine, rfl⟩
  refine ⟨_, hbuild, (hmain.2.1 _ (List.Perm.swap _ _ _) _).mpr hbuild, ?_⟩
  exact (hmain.2.2 _ (List.Perm.swap _ _ _) _).mpr ⟨_, hbuild, rfl⟩

end IsadoraAir.Releases
