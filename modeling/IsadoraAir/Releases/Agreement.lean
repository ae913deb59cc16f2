import IsadoraAir.Releases.Derivation
import IsadoraAir.Releases.Planner

/-!
# Both planners fingerprint the same contract

Reading the same tip, the two planners order the same releases, give each the
same commit, start from the same one, and fold the path between to the same
values.
-/

namespace IsadoraAir.Releases

variable {x : ChainedRelease} {entries : List ChainEntry}

variable {checkout : Checkout} {git : GitHistory} {commits : List (String × String)}
  {chain : List ChainedRelease} {head tip : String} {t : Transition}

/-- Both sides read the same manifest files and the same introducing commits
at a tip, and hash alike. -/
structure SameHistory (checkout : Checkout) (repository : Repository) (tip : String) : Prop where
  manifests : ∀ manifests trusted, checkout.manifestsAt tip = .ok manifests →
    repository.manifestsAt tip = .ok trusted →
      trusted.items.Perm (manifests.items.map ReleaseManifest.onUpdater)
  introducingCommit : ∀ path,
    repository.git.introducingCommit path tip = checkout.git.introducingCommit path tip
  sha256 : repository.sha256 = checkout.sha256

/-! ## Commits -/

/-- Where the application looks for a release's commit. -/
def releaseCommit (git : GitHistory) (tip : String) (m : ReleaseManifest) : Option String :=
  if m.isBootstrap then m.bootstrapCommit
  else git.introducingCommit (releaseDir ++ "/" ++ m.releaseId ++ ".json") tip

/-- Where the updater looks for it. -/
def entryCommit (git : GitHistory) (tip : String) (m : Manifest) (index : ℕ) : Option String :=
  if index = 0 then m.bootstrapCommit
  else git.introducingCommit (releaseDir ++ "/" ++ m.releaseId ++ ".json") tip

theorem resolveUniqueReleaseCommits_ok {resolved : List (String × String)}
    (h : resolveUniqueReleaseCommits git tip resolved chain = .ok commits) :
    commits.map (fun p => (p.1, some p.2)) = resolved.map (fun p => (p.1, some p.2)) ++
      chain.map fun x => (x.manifest.releaseId, releaseCommit git tip x.manifest) := by
  induction chain generalizing resolved with
  | nil =>
    cases h
    simp
  | cons x rest ih =>
    simp only [resolveUniqueReleaseCommits] at h
    split at h
    · cases h
    · rename_i commit hcommit
      split at h
      · cases h
      · have hfound : releaseCommit git tip x.manifest = some commit :=
          (Option.filter_eq_some_iff.mp hcommit).1
        rw [ih h, List.map_append, List.append_assoc, @List.map_cons _ _ _ x rest, hfound]
        rfl

/-- The dictionary holds exactly the commit that was looked up. -/
theorem releaseCommit_of_resolved

    (h : resolveUniqueReleaseCommits git tip [] chain = .ok commits)
    (hids : (chain.map fun x => x.manifest.releaseId).Nodup) (hx : x ∈ chain) :
    releaseCommit git tip x.manifest = some (commitOf commits x.manifest.releaseId) := by
  have hcommits := resolveUniqueReleaseCommits_ok h
  rw [List.map_nil, List.nil_append] at hcommits
  have hkeys : (commits.map Prod.fst).Nodup := by
    have hfst := congrArg (List.map Prod.fst) hcommits
    rw [List.map_map, List.map_map] at hfst
    exact hfst ▸ hids
  have hentry : (x.manifest.releaseId, releaseCommit git tip x.manifest) ∈
      commits.map fun p => (p.1, some p.2) := by
    rw [hcommits]
    exact List.mem_map_of_mem hx
  obtain ⟨⟨id, c⟩, hmem, heq⟩ := List.mem_map.mp hentry
  obtain ⟨rfl, hc⟩ := Prod.mk.inj heq
  have hfind : commits.find? (fun item => item.1 = x.manifest.releaseId) =
      some (x.manifest.releaseId, c) := by
    obtain ⟨found, hfound⟩ : ∃ found,
        commits.find? (fun item => item.1 = x.manifest.releaseId) = some found := by
      apply Option.isSome_iff_exists.mp
      exact List.find?_isSome.mpr ⟨_, hmem, by simp⟩
    have hkey : found.1 = x.manifest.releaseId := by simpa using List.find?_some hfound
    have hsame := List.inj_on_of_nodup_map hkeys (List.mem_of_find?_eq_some hfound) hmem hkey
    rw [hfound, hsame]
  rw [commitOf, hfind]
  exact hc.symm

theorem entryCommit_of_resolved {result : List ChainEntry} {items : List (Manifest × ℕ)}
    (h : resolveEntries git tip entries items = .ok result) {e : ChainEntry} (he : e ∈ result) :
    e ∈ entries ∨ entryCommit git tip e.manifest e.index = some e.commit := by
  induction items generalizing entries with
  | nil =>
    cases h
    exact Or.inl he
  | cons item rest ih =>
    obtain ⟨m, i⟩ := item
    simp only [resolveEntries] at h
    split at h
    · cases h
    · rename_i commit hcommit
      split at h
      · cases h
      · rcases ih h with hold | hnew
        · rcases List.mem_append.mp hold with hold | hlast
          · exact Or.inl hold
          · rw [List.mem_singleton.mp hlast]
            exact Or.inr (Option.filter_eq_some_iff.mp hcommit).1
        · exact Or.inr hnew

/-- A release of the application's chain as the updater's entry. -/
def ChainedRelease.entry (commits : List (String × String)) (x : ChainedRelease) : ChainEntry :=
  ⟨x.manifest.onUpdater, x.index, commitOf commits x.manifest.releaseId⟩

theorem isBootstrap_iff_index {items line : List ReleaseManifest}
    (h : IsReleaseLine items line) (hx : x ∈ number line) :
    x.manifest.isBootstrap = true ↔ x.index = 0 := by
  have hget := mem_number.mp hx
  obtain ⟨first, rest, rfl, hfirst⟩ := h.isLine.head
  rw [ReleaseManifest.isBootstrap, decide_eq_true_iff]
  constructor
  · intro hnone
    cases hi : x.index with
    | zero => rfl
    | succ n =>
      rw [hi, List.getElem?_cons_succ] at hget
      obtain ⟨y, -, hy⟩ :=
        PointerLine.exists_followed _ _ h.isLine.chain (List.mem_of_getElem? hget)
      rw [PointerLine.Follows, hnone] at hy
      cases hy
  · intro hi
    rw [hi] at hget
    cases hget
    exact hfirst

/-- The two chains agree entry by entry. -/
theorem entries_eq {repository : Repository} (hsame : SameHistory checkout repository tip)
    {trusted : TrustedManifestSet} (hchain : loadReleaseChain checkout tip = .ok chain)
    (hcommits : resolveUniqueReleaseCommits checkout.git tip [] chain = .ok commits)
    (htrusted : repository.manifestsAt tip = .ok trusted)
    (hentries : loadChain repository.git tip trusted = .ok entries) :
    entries = chain.map (ChainedRelease.entry commits) := by
  obtain ⟨manifests, hmanifests, hbuild⟩ := bind_eq_ok.mp hchain
  have hbuild := mapError_eq_ok.mp hbuild
  have hperm := hsame.manifests manifests trusted hmanifests htrusted
  obtain ⟨line, hline, rfl⟩ := buildChain_ok_iff.mp hbuild
  have hids : ((number line).map fun x => x.manifest.releaseId).Nodup := by
    have := hline.isLine.nodup manifests.ids
    rwa [← map_manifest_number line, List.map_map] at this
  obtain ⟨ordered', hordered', hmanifest⟩ :=
    (structuralChain_iff_buildChain hperm).mp (structuralChain_of_loadChain hentries)
  rw [hbuild] at hordered'
  cases hordered'
  obtain ⟨ordered, hordered, hrest⟩ := bind_eq_ok.mp hentries
  obtain ⟨found, hfound, hrest⟩ := bind_eq_ok.mp hrest
  obtain ⟨_, -, hrest⟩ := bind_eq_ok.mp hrest
  cases hrest
  have hpairs := resolveEntries_ok hfound
  rw [List.map_nil, List.nil_append] at hpairs
  have hordered : ordered = entries.map ChainEntry.manifest := by
    have := congrArg (List.map Prod.fst) hpairs
    rw [List.map_map, List.zipIdx_map_fst] at this
    exact this.symm
  rw [hordered, hmanifest] at hpairs
  have hlength : entries.length = (number line).length := by
    simpa using congrArg List.length hmanifest
  apply List.ext_getElem (by simpa using hlength)
  intro i hi hi'
  have hchained : i < (number line).length := hlength ▸ hi
  have hmem : (number line)[i] ∈ number line := List.getElem_mem hchained
  have hindex : ((number line)[i]).index = i := by simp [number]
  have hpair : (entries[i].manifest, entries[i].index) =
      (((number line)[i]).manifest.onUpdater, i) := by
    have hget : (entries.map fun e => (e.manifest, e.index))[i]? =
        some (entries[i].manifest, entries[i].index) := by simp [hi]
    rw [hpairs] at hget
    simpa [hchained] using hget.symm
  obtain ⟨hm, hi0⟩ := Prod.mk.inj hpair
  have hcommit : some entries[i].commit =
      some (commitOf commits ((number line)[i]).manifest.releaseId) := by
    rcases entryCommit_of_resolved hfound (List.getElem_mem hi) with hnil | hentry
    · cases hnil
    · rw [← hentry, ← releaseCommit_of_resolved hcommits hids hmem, hm, hi0, entryCommit,
        releaseCommit, hsame.introducingCommit]
      have hboot := isBootstrap_iff_index hline hmem
      rw [hindex] at hboot
      simp only [hboot]
      rfl
  rw [List.getElem_map, ChainedRelease.entry, hindex, ← hm, ← Option.some.inj hcommit]
  cases hentry : entries[i]
  simp_all

/-! ## Aggregation -/

/-- The application's accumulators as the updater keeps them. -/
def Aggregate.collected (a : Aggregate) : Collected where
  migrations := a.explicitRefs
  packages := a.aptNew
  changed := a.unitsChanged
  required := a.unitsNewRequired
  optional := a.unitsNewOptional
  removed := a.unitsRemoved
  restartSet := a.restartSet
  compatibility := a.compatibilitySeen

theorem Aggregate.collected_add (a : Aggregate) (m : ReleaseManifest) :
    (a.add m).collected = a.collected.add m.onUpdater := rfl

theorem aggregate_collected (releases : List ReleaseManifest) :
    (aggregate releases).collected =
      (releases.map ReleaseManifest.onUpdater).foldl Collected.add .initial := by
  rw [List.foldl_map]
  exact (List.foldl_hom Aggregate.collected fun a m => (a.collected_add m).symm).symm

/-- A flag that each release can only raise is raised by one of them. -/
theorem aggregate_flag {flag : Aggregate → Bool} {raised : ReleaseManifest → Bool}
    (hadd : ∀ a m, flag (a.add m) = (flag a || raised m)) (hinitial : flag .initial = false)
    (releases : List ReleaseManifest) : flag (aggregate releases) = releases.any raised := by
  have hfold : ∀ a, flag (releases.foldl Aggregate.add a) = (flag a || releases.any raised) := by
    induction releases with
    | nil => simp
    | cons m rest ih =>
      intro a
      rw [List.foldl_cons, ih, hadd, List.any_cons, Bool.or_assoc]
  rw [aggregate, hfold, hinitial, Bool.false_or]

/-- No release asks for a protocol below one, so starting from one is starting
from the first. -/
theorem aggregate_minimumProtocol {releases : List ReleaseManifest} (h : releases ≠ []) :
    (aggregate releases).minimumProtocol =
      (releases.map ReleaseManifest.minimumUpdaterProtocolVersion).max?.getD 0 := by
  have hfold : (aggregate releases).minimumProtocol =
      (releases.map ReleaseManifest.minimumUpdaterProtocolVersion).foldl max 1 := by
    rw [List.foldl_map, aggregate]
    exact (List.foldl_hom Aggregate.minimumProtocol fun a m => rfl).symm
  cases releases with
  | nil => exact absurd rfl h
  | cons m rest =>
    have hfirst : max 1 m.minimumUpdaterProtocolVersion = m.minimumUpdaterProtocolVersion :=
      max_eq_right m.protocol_pos
    rw [hfold, List.map_cons, List.foldl_cons, hfirst, List.max?_cons', Option.getD_some]

theorem overall_eq (seen : List (Option String)) : overall seen = overallCompatibility seen := by
  unfold overall overallCompatibility
  by_cases hnil : seen = []
  · simp [hnil]
  · simp [hnil]

/-! ## The plans -/

/-- A later release than the installed one leaves something to cross. -/
theorem Transition.Checked.releasesInPlan_ne_nil (ht : t.Checked checkout head tip)
    (h : t.installed.index < t.latest.index) : t.releasesInPlan ≠ [] := by
  obtain ⟨manifests, -, hbuild⟩ := bind_eq_ok.mp ht.chain
  obtain ⟨line, -, hchain⟩ := buildChain_ok_iff.mp (mapError_eq_ok.mp hbuild)
  have hmem : t.latest ∈ number line := hchain ▸ List.mem_of_getLast? ht.latest
  obtain ⟨hindex, -⟩ := List.getElem?_eq_some_iff.mp (mem_number.mp hmem)
  have hlength : t.chain.length = line.length := by simp [hchain, number]
  intro hnil
  have hzero := congrArg List.length (ht.releasesInPlan.symm.trans hnil)
  rw [List.length_take, List.length_drop, List.length_nil] at hzero
  omega

/-- The updater's values for what the application has checked. -/
theorem planValues_eq (ht : t.Checked checkout head tip) (hne : t.releasesInPlan ≠ []) :
    planValues (t.installed.entry t.commits) (t.latest.entry t.commits)
      (t.releasesInPlan.map (ChainedRelease.entry t.commits)) = t.fingerprintValues := by
  have hitems : (t.releasesInPlan.map (ChainedRelease.entry t.commits)).map ChainEntry.manifest =
      (t.releasesInPlan.map ChainedRelease.manifest).map ReleaseManifest.onUpdater := by
    rw [List.map_map, List.map_map]
    rfl
  have hany : ∀ f : Manifest → Bool,
      ((t.releasesInPlan.map ChainedRelease.manifest).map ReleaseManifest.onUpdater).any f =
        (t.releasesInPlan.map ChainedRelease.manifest).any fun m => f m.onUpdater :=
    fun f => List.any_map
  have hmax : (((t.releasesInPlan.map ChainedRelease.manifest).map ReleaseManifest.onUpdater).map
      Manifest.minimumUpdaterProtocolVersion).max?.getD 0 = t.aggregated.minimumProtocol := by
    rw [Transition.aggregated, aggregate_minimumProtocol (by simpa using hne), List.map_map]
    rfl
  have hids : ((t.releasesInPlan.map ChainedRelease.manifest).map ReleaseManifest.onUpdater).map
      Manifest.releaseId = t.releasesInPlan.map fun chained => chained.manifest.releaseId := by
    rw [List.map_map, List.map_map]
    rfl
  simp only [planValues, hitems, ← aggregate_collected, overall_eq, hany, hmax, hids]
  unfold Transition.fingerprintValues
  rw [PlanValues.mk.injEq]
  refine ⟨rfl, ht.installedCommit.symm, rfl, ht.targetCommit.symm, rfl, rfl, rfl, ?_, rfl, rfl,
    rfl, rfl, rfl, ?_, rfl, ?_, ?_, rfl, ?_⟩
  all_goals exact (aggregate_flag (fun _ _ => rfl) rfl _).symm

/-- The newest declared runtime and its provenance are the same. -/
theorem fingerprintPayload_eq (ht : t.Checked checkout head tip) (hne : t.releasesInPlan ≠ []) :
    (provisionalPlan (t.installed.entry t.commits) (t.latest.entry t.commits)
      (t.releasesInPlan.map (ChainedRelease.entry t.commits))).fingerprintPayload =
        t.executionPayload := by
  have heffective : effectiveProtectedRuntimeTransition
      (t.releasesInPlan.map (ChainedRelease.entry t.commits)) =
      (t.releasesInPlan.reverse.findSome? fun chained =>
        chained.manifest.protectedRuntime.map (chained, ·)).map fun found =>
          ⟨found.2.onUpdater, found.1.manifest.releaseId, found.1.manifest.previousReleaseId,
            commitOf t.commits found.1.manifest.releaseId⟩ := by
    rw [effectiveProtectedRuntimeTransition, ← List.map_reverse, List.findSome?_map,
      List.map_findSome?]
    congr 1
    funext chained
    cases h : chained.manifest.protectedRuntime <;>
      simp [ChainedRelease.entry, ReleaseManifest.onUpdater, h]
  unfold TrustedPlan.fingerprintPayload Transition.executionPayload provisionalPlan
  simp only [heffective, planValues_eq ht hne]
  cases t.releasesInPlan.reverse.findSome? fun chained =>
      chained.manifest.protectedRuntime.map (chained, ·) with
  | none => rfl
  | some found => rfl

/-- Of one tip and one `HEAD`, a ready plan and a derived plan are fingerprinted
from the same contract. -/
theorem execution_contracts_agree {checkout : Checkout} {repository : Repository}
    {tip head requestedTargetReleaseId : String} {plan : TrustedPlan}
    (hsame : SameHistory checkout repository tip) (hhead : checkout.revParse "HEAD" = some head)
    (htip : canonicalTip checkout = some tip)
    (hready : (buildPlan checkout).safetyStatus = .readyToPlan)
    (hplan : derivePlan repository tip head requestedTargetReleaseId = .ok plan) :
    ∃ t, checkTransition checkout = .ok t ∧ t.executionPayload = plan.fingerprintPayload ∧
      (buildPlan checkout).fingerprint = plan.fingerprint := by
  obtain ⟨t, hcheck, hbuild⟩ := transition_of_ready hready
  obtain ⟨head', tip', hhead', htip', ht⟩ := checkTransition_ok hcheck
  obtain rfl : head = head' := Option.some.inj (hhead.symm.trans hhead')
  obtain rfl : tip = tip' := Option.some.inj (htip.symm.trans htip')
  obtain ⟨entries, installed, target, hderived, rfl⟩ := derivePlan_ok hplan
  obtain ⟨trusted, htrusted, hloaded⟩ := hderived.loaded
  have hentries := entries_eq hsame ht.chain ht.commits htrusted hloaded
  -- the application's installed release is the only entry at `HEAD`
  have hinstalled : installed = t.installed.entry t.commits := by
    have hat : (t.installed.entry t.commits).commit = head := by
      rw [ht.atHead, ht.installedCommit]
      rfl
    have hmem : t.installed.entry t.commits ∈ entries.filter fun entry => entry.commit = head := by
      rw [hentries, List.mem_filter]
      exact ⟨List.mem_map_of_mem ht.installed, decide_eq_true hat⟩
    rw [hderived.exact] at hmem
    exact (List.mem_singleton.mp hmem).symm
  have htarget : target = t.latest.entry t.commits := by
    have hlast := hderived.last
    rw [hentries, List.getLast?_map, ht.latest] at hlast
    exact (Option.some.inj hlast).symm
  have htransitions : (entries.drop (installed.index + 1)).take (target.index - installed.index) =
      t.releasesInPlan.map (ChainedRelease.entry t.commits) := by
    rw [hinstalled, htarget, hentries, ht.releasesInPlan, List.map_take, List.map_drop]
    rfl
  have hadvances : t.installed.index < t.latest.index := by
    have := hderived.advances
    rwa [hinstalled, htarget] at this
  have hne := ht.releasesInPlan_ne_nil hadvances
  have hpayload := fingerprintPayload_eq ht hne
  rw [← hinstalled, ← htarget, ← htransitions] at hpayload
  refine ⟨t, hcheck, hpayload.symm, ?_⟩
  rw [hbuild]
  show UpdateCenter.fingerprint checkout.sha256 t.executionPayload = _
  rw [← hpayload, ← hsame.sha256]
  rfl

/-! ## A station one release behind -/

def sampleHistory : GitHistory where
  introducingCommit path _ := if path = "deploy/releases/r0002.json" then some "1111" else none
  commitExists commit := commit = "0000" || commit = "1111"
  isAncestor ancestor descendant := some (ancestor = descendant || ancestor = "0000")

def sampleManifests : ManifestSet := ⟨[sampleSecond, sampleBootstrap], by decide⟩

def sampleTrusted : TrustedManifestSet :=
  ⟨sampleManifests.items.map ReleaseManifest.onUpdater, by decide⟩

def sampleCheckout : Checkout where
  schemaHealth := ⟨.schemaCurrent, [], ""⟩
  dirty := false
  detachedHead := false
  originUrl := some "station.git"
  branch := some "main"
  revParse ref := if ref = "HEAD" then some "0000"
    else if ref = "origin/main" then some "1111" else none
  aheadBehind _ _ := some (0, 1)
  manifestsAt tip := if tip = "1111" then .ok sampleManifests else .error "no manifests"
  git := sampleHistory
  crossCheck _ _ _ := []
  previewMigrations refs := (refs, [], [])
  appliedMigrations := []
  sha256 text := text

def sampleRepository : Repository where
  manifestsAt tip :=
    if tip = "1111" then .ok sampleTrusted else .error ⟨"no manifests"⟩
  git := sampleHistory
  crossCheck _ _ _ := .ok ()
  sha256 text := text

theorem sampleHistory_same : SameHistory sampleCheckout sampleRepository "1111" where
  manifests manifests trusted h h' := by
    cases h
    cases h'
    exact List.Perm.refl _
  introducingCommit _ := rfl
  sha256 := rfl

theorem sampleCheckout_ready : (buildPlan sampleCheckout).safetyStatus = .readyToPlan := by
  have hchain : loadReleaseChain sampleCheckout "1111" =
      .ok (number [sampleBootstrap, sampleSecond]) :=
    bind_eq_ok.mpr ⟨sampleManifests, rfl,
      mapError_eq_ok.mpr (buildChain_ok_iff.mpr ⟨_, sampleLine, rfl⟩)⟩
  have hcheck : checkTransition sampleCheckout = .ok ⟨number [sampleBootstrap, sampleSecond],
      [("r0001", "0000"), ("r0002", "1111")], ⟨sampleBootstrap, 0⟩, "0000", ⟨sampleSecond, 1⟩,
      "1111", [⟨sampleSecond, 1⟩]⟩ := by
    refine bind_eq_ok.mpr ⟨(), by rfl, ?_⟩
    refine bind_eq_ok.mpr ⟨(), by rfl, ?_⟩
    refine bind_eq_ok.mpr ⟨(), by rfl, ?_⟩
    refine bind_eq_ok.mpr ⟨"0000", by rfl, ?_⟩
    refine bind_eq_ok.mpr ⟨(), by rfl, ?_⟩
    refine bind_eq_ok.mpr ⟨"1111", by rfl, ?_⟩
    refine bind_eq_ok.mpr ⟨_, mapError_eq_ok.mpr hchain, ?_⟩
    rfl
  simp only [buildPlan, hcheck]
  rfl

def sampleInstalled : ChainEntry := ⟨sampleBootstrap.onUpdater, 0, "0000"⟩
def sampleTarget : ChainEntry := ⟨sampleSecond.onUpdater, 1, "1111"⟩

def samplePlan : TrustedPlan :=
  let provisional := provisionalPlan sampleInstalled sampleTarget [sampleTarget]
  { provisional with
    fingerprint := Updater.fingerprint sampleRepository.sha256 provisional.fingerprintPayload }

theorem sampleHistory_chain :
    loadChain sampleHistory "1111" sampleTrusted = .ok [sampleInstalled, sampleTarget] := by
  have hordered : orderManifests sampleTrusted =
      .ok ([sampleBootstrap, sampleSecond].map ReleaseManifest.onUpdater) :=
    orderManifests_ok_iff.mpr ((isTrustedLine_map_iff (List.Perm.swap _ _ _)).mpr sampleLine).isLine
  exact bind_eq_ok.mpr ⟨_, hordered, rfl⟩

theorem sampleRepository_plan :
    derivePlan sampleRepository "1111" "0000" "r0002" = .ok samplePlan :=
  bind_eq_ok.mpr ⟨sampleTrusted, rfl, bind_eq_ok.mpr ⟨_, sampleHistory_chain, rfl⟩⟩

theorem execution_contracts_agree_sample :
    (buildPlan sampleCheckout).fingerprint = samplePlan.fingerprint := by
  obtain ⟨t, -, -, hfingerprint⟩ := execution_contracts_agree sampleHistory_same rfl rfl
    sampleCheckout_ready sampleRepository_plan
  exact hfingerprint

end IsadoraAir.Releases
