import IsadoraAir.DuplicateResolution.Steps
import IsadoraAir.Foundation.Once

/-!
# Tokens and deletions

A token is spent once, and what a deletion with it rests on.
-/

/-!
## Each token is spent once

The row that claims a nonce is kept until no token with that nonce is valid any
more, so a request that gets past the claim is the only one. A worker holds the
nonce until its pair is resolved.
-/

namespace IsadoraAir.DuplicateResolution

variable {plan : Plan} {α : Type} {cfg : Config} {a b : α} {s s' : Shared α} {x : Action}

def Deletion.nonce (d : Deletion) : String := d.job.plan.nonce

variable (cfg) in
/-- A token that nobody can spend: its nonce is claimed, or it has been invalid for long. -/
def Unavailable (s : Shared α) (plan : Plan) : Prop :=
  (∃ expiry, s.claims.get? (claimKey cfg plan.nonce) = some expiry ∧
    plan.signedAt + claimLifetime ≤ expiry) ∨ plan.signedAt + claimLifetime < s.clock

/-- The worker has redeemed the token in time. -/
structure Redeemed (s : Shared α) (a : α) (plan : Plan) : Prop where
  issued : plan ∈ s.issued
  received : s.received a ≤ plan.signedAt + tokenMaxAge

structure Holds (s : Shared α) (a : α) (plan : Plan) : Prop where
  issued : plan ∈ s.issued
  holding : s.holding a = some plan.nonce

variable (cfg) in
structure Spending (s : Shared α) : Prop where
  nonces : (s.issued.map Plan.nonce).Nodup
  signed : ∀ plan ∈ s.issued, plan.signedAt ≤ s.clock
  issued : ∀ nonce ∈ s.spent, ∃ plan ∈ s.issued, plan.nonce = nonce
  unavailable : ∀ plan ∈ s.issued, plan.nonce ∈ s.spent → Unavailable cfg s plan
  once : Once s.spent (s.ledger.map Deletion.nonce) s.holding

theorem wholeSeconds_le (time : ℤ) : wholeSeconds time ≤ time := by
  unfold wholeSeconds
  omega

theorem Unavailable.mono (h : Unavailable cfg s plan)
    (hclaims : s'.claims = s.claims) (hclock : s.clock ≤ s'.clock) :
    Unavailable cfg s' plan := by
  rcases h with ⟨expiry, hget, hle⟩ | hlt
  · exact .inl ⟨expiry, hclaims ▸ hget, hle⟩
  · exact .inr (hlt.trans_le hclock)

/-- Only claims that are of no use any more are removed. -/
theorem Unavailable.purge (h : Unavailable cfg s plan) : Unavailable cfg (purgeClaims s) plan := by
  rcases h with ⟨expiry, hget, hle⟩ | hlt
  · by_cases hexpired : s.clock ≤ expiry
    · refine .inl ⟨expiry, ?_, hle⟩
      rw [Dict.get?_eq_some_iff] at hget ⊢
      exact List.mem_filter.mpr ⟨hget, decide_eq_true hexpired⟩
    · exact .inr (hle.trans_lt (not_le.mp hexpired))
  · exact .inr hlt

/-- A token that is redeemed in time and whose nonce is not claimed has not been spent. -/
theorem Spending.not_spent (hs : Spending cfg s) (hredeemed : Redeemed s a plan)
    (hlive : s.clock ≤ s.received a + workerTimeout)
    (hfree : s.claims.get? (claimKey cfg plan.nonce) = none) : plan.nonce ∉ s.spent := by
  intro hspent
  rcases hs.unavailable plan hredeemed.issued hspent with ⟨expiry, hget, -⟩ | hlate
  · rw [hfree] at hget
    cases hget
  · have hreceived := hredeemed.received
    simp only [claimLifetime, tokenMaxAge, workerTimeout] at *
    omega

/-! ### What an action keeps -/

/-- What matters here is unchanged. -/
theorem Spending.of_eq (hs : Spending cfg s) (hissued : s'.issued = s.issued)
    (hclock : s.clock ≤ s'.clock) (hclaims : s'.claims = s.claims) (hspent : s'.spent = s.spent)
    (hholding : s'.holding = s.holding) (hledger : s'.ledger = s.ledger) : Spending cfg s' where
  nonces := hissued ▸ hs.nonces
  signed plan h := (hs.signed plan (hissued ▸ h)).trans hclock
  issued nonce h := by
    rw [hissued]
    exact hs.issued nonce (hspent ▸ h)
  unavailable plan h hmem :=
    (hs.unavailable plan (hissued ▸ h) (hspent ▸ hmem)).mono hclaims hclock
  once := by
    rw [hspent, hholding, hledger]
    exact hs.once

theorem Spending.sign (hs : Spending cfg s) {user : ℕ} {scan nonce : String} {entry : PlanEntry}
    (hfresh : nonce ∉ s.issued.map Plan.nonce) :
    Spending cfg (sign s user scan nonce entry) where
  nonces := by
    rw [DuplicateResolution.sign, List.map_append]
    exact hs.nonces.append (List.nodup_singleton _) (by simpa [newPlan] using hfresh)
  signed plan h := by
    rcases List.mem_append.mp h with h | h
    · exact hs.signed plan h
    · rw [List.mem_singleton.mp h]
      exact wholeSeconds_le s.clock
  issued nonce h := by
    obtain ⟨plan, hplan, hnonce⟩ := hs.issued nonce h
    exact ⟨plan, List.mem_append_left _ hplan, hnonce⟩
  unavailable plan h hmem := by
    rcases List.mem_append.mp h with h | h
    · exact hs.unavailable plan h hmem
    · rw [List.mem_singleton.mp h] at hmem
      obtain ⟨other, hother, hnonce⟩ := hs.issued _ hmem
      exact absurd (List.mem_map.mpr ⟨other, hother, hnonce⟩) hfresh
  once := hs.once

theorem Spending.purge (hs : Spending cfg s) : Spending cfg (purgeClaims s) where
  nonces := hs.nonces
  signed := hs.signed
  issued := hs.issued
  unavailable plan h hmem := (hs.unavailable plan h hmem).purge
  once := hs.once

variable [DecidableEq α]

theorem Spending.spend (hs : Spending cfg s) (hplan : plan ∈ s.issued)
    (hspent : plan.nonce ∉ s.spent) : Spending cfg (spend cfg s a plan.nonce) where
  nonces := hs.nonces
  signed := hs.signed
  issued nonce h := by
    rcases List.mem_append.mp h with h | h
    · exact hs.issued nonce h
    · exact ⟨plan, hplan, (List.mem_singleton.mp h).symm⟩
  unavailable other h hmem := by
    have hsigned := hs.signed other h
    by_cases hkey : claimKey cfg other.nonce = claimKey cfg plan.nonce
    · refine .inl ⟨s.clock + claimLifetime, ?_, by omega⟩
      simp [DuplicateResolution.spend, hkey]
    · have hne : other.nonce ≠ plan.nonce := fun heq => hkey (heq ▸ rfl)
      have hbefore : other.nonce ∈ s.spent := by
        rcases List.mem_append.mp hmem with hmem | hmem
        · exact hmem
        · exact absurd (List.mem_singleton.mp hmem) hne
      rcases hs.unavailable other h hbefore with ⟨expiry, hget, hle⟩ | hlate
      · refine .inl ⟨expiry, ?_, hle⟩
        simpa [DuplicateResolution.spend, Dict.get?_insert, hkey] using hget
      · exact .inr hlate
  once := hs.once.spend hspent

theorem Spending.commitPair (hs : Spending cfg s) {job : Job} (hheld : Holds s a job.plan) :
    Spending cfg (commitPair s a job) where
  nonces := hs.nonces
  signed := hs.signed
  issued := hs.issued
  unavailable plan h hmem := hs.unavailable plan h hmem
  once := by
    rw [DuplicateResolution.commitPair, List.map_append]
    exact hs.once.finish hheld.holding

end IsadoraAir.DuplicateResolution

/-!
## What a deletion rests on

The checks of the pair's transaction, read off as facts about the station at
that moment: the two files are those that the scan has compared, and the two
Tracks are as they were previewed.
-/

namespace IsadoraAir.DuplicateResolution

variable {columns : Columns} {f : Finding} {discard keep track : TrackId}
  {α : Type} {w : Station} {job : Job} {localHour : ℤ → ℤ × ℕ} {now : ℤ} {i : Inspection}

/-- The path and the witness that the scan has recorded. -/
def Intact (w : Station) (entry : Entry) (columns : Columns) : Prop :=
  entry.path = some columns.filepath ∧
    ∃ identity, fileIdentity w columns.filepath = .ok identity ∧ entry.witness = some identity

/-- Both Tracks exist, with exactly the files in which the scan has found one recording. -/
def Verified (w : Station) (f : Finding) (keep discard : TrackId) : Prop :=
  ∃ kept discarded entry other,
    w.tracks.get? keep = some kept ∧ w.tracks.get? discard = some discarded ∧
    Intact w entry kept ∧ Intact w other discarded ∧ SameRecording f entry other

/-- Both Tracks are as the token says. -/
def Matches (w : Station) (entry : DeleteEntry) : Prop :=
  ∃ kept discarded,
    w.tracks.get? entry.keep = some kept ∧ w.tracks.get? entry.discard = some discarded ∧
    entry.fingerprints =
      ⟨fingerprint w entry.keep kept, fingerprint w entry.discard discarded⟩ ∧
    entry.voicetracks = (w.voicetracks.filter (· = entry.discard)).length

/-- Each part of the view has been there at some time. -/
structure View (past : List Station) (view : Station) : Prop where
  tracks : ∃ w ∈ past, view.tracks = w.tracks
  additional : ∃ w ∈ past, view.additional = w.additional
  lstat : ∀ path, ∃ w ∈ past, view.lstat path = w.lstat path
  voicetracks : ∃ w ∈ past, view.voicetracks = w.voicetracks

def Previewed (past : List Station) (plan : Plan) : Prop :=
  ∀ entry, plan.entry = .delete entry → ∃ view, View past view ∧ Matches view entry

/-- A complete report names both Tracks in a finding that can be resolved. -/
def Linked (reports : List Report) (track other : TrackId) : Prop :=
  ∃ report ∈ reports, report.status = "complete" ∧
    ∃ f ∈ report.findings, findingEligibility f = .ok () ∧ track ∈ f.members ∧ other ∈ f.members

/-- The Tracks are in one group of findings. -/
abbrev Connected (reports : List Report) : TrackId → TrackId → Prop :=
  Relation.ReflTransGen (Linked reports)

/-! ### The checks -/

theorem inspect_eq_ok {o : Observed} (h : inspect f keep discard o localHour now w = .ok i) :
    ∃ kept discarded, w.tracks.get? keep = some kept ∧ w.tracks.get? discard = some discarded ∧
      i.fingerprints = ⟨fingerprint w keep kept, fingerprint w discard discarded⟩ ∧
      i.voicetracks = (w.voicetracks.filter (· = discard)).length ∧
      (i.blockers = [] →
        fileBlocker w ((evidence f).toOption.getD .empty) .kept keep kept = [] ∧
        fileBlocker w ((evidence f).toOption.getD .empty) .discarded discard discarded = [] ∧
        sharedFile w kept discarded = false) := by
  obtain ⟨kept, hkept, h⟩ := orRaise_bind_eq_ok.mp h
  obtain ⟨discarded, hdiscarded, h⟩ := orRaise_bind_eq_ok.mp h
  cases h
  refine ⟨kept, discarded, hkept, hdiscarded, rfl, rfl, fun hblockers => ?_⟩
  simp only [List.append_eq_nil_iff] at hblockers
  obtain ⟨⟨⟨⟨⟨⟨⟨hfile, -⟩, hother⟩, -⟩, hshared⟩, -⟩, -⟩, -⟩ := hblockers
  refine ⟨hfile, hother, ?_⟩
  by_contra hsame
  rw [if_pos (by simpa using hsame)] at hshared
  cases hshared

theorem fileBlocker_eq_nil {found : Dict TrackId Entry} {role : Role}
    (h : fileBlocker w found role track columns = []) :
    ∃ entry, found.get? track = some entry ∧ Intact w entry columns := by
  unfold fileBlocker at h
  dsimp only at h
  split_ifs at h with hpath
  rw [not_not, Option.bind_eq_some_iff] at hpath
  obtain ⟨entry, hentry, hpath⟩ := hpath
  refine ⟨entry, hentry, hpath, ?_⟩
  split at h
  · cases h
  · next identity hidentity =>
    split_ifs at h with hwitness
    refine ⟨identity, hidentity, ?_⟩
    simpa [hentry] using hwitness

theorem recheck_eq_ok (h : recheck job localHour now w = .ok i) :
    inspect job.finding job.entry.keep job.entry.discard job.observed localHour now w = .ok i ∧
      i.fingerprints = job.entry.fingerprints ∧ i.blockers = [] ∧
      i.voicetracks = job.entry.voicetracks ∧ job.choice.categories ⊆ i.suggestions := by
  obtain ⟨inspection, hinspect, h⟩ := bind_eq_ok.mp h
  obtain ⟨hfingerprints, h⟩ := raiseIf_bind_eq_ok.mp h
  obtain ⟨hblockers, h⟩ := raiseIf_bind_eq_ok.mp h
  obtain ⟨hvoicetracks, h⟩ := raiseIf_bind_eq_ok.mp h
  obtain ⟨-, h⟩ := raiseIf_bind_eq_ok.mp h
  obtain ⟨hchosen, h⟩ := raiseIf_bind_eq_ok.mp h
  cases h
  exact ⟨mapError_eq_ok.mp hinspect, not_not.mp hfingerprints, not_not.mp hblockers,
    not_not.mp hvoicetracks, not_not.mp hchosen⟩

/-- The Tracks are as they were previewed. -/
theorem recheck_matches (h : recheck job localHour now w = .ok i) : Matches w job.entry := by
  obtain ⟨hinspect, hfingerprints, -, hvoicetracks, -⟩ := recheck_eq_ok h
  obtain ⟨kept, discarded, hkept, hdiscarded, heq, hcount, -⟩ := inspect_eq_ok hinspect
  exact ⟨kept, discarded, hkept, hdiscarded, hfingerprints ▸ heq, hvoicetracks ▸ hcount⟩

/-- The same path would be the same file. -/
theorem sharedFile_self {entry : Entry} (h : Intact w entry columns) :
    sharedFile w columns columns = true := by
  obtain ⟨-, identity, hidentity, -⟩ := h
  simp [sharedFile, hidentity]

theorem offers_members {entry : DeleteEntry} (h : offers f entry = true) :
    findingEligibility f = .ok () ∧
      (f.members = [entry.keep, entry.discard] ∨ f.members = [entry.discard, entry.keep]) := by
  simp only [offers, Bool.decide_and, Bool.and_eq_true, decide_eq_true_eq] at h
  obtain ⟨heligible, hsorted⟩ := h
  have hok : findingEligibility f = .ok () := by
    cases hcase : findingEligibility f with
    | error why => simp [hcase, Except.toBool] at heligible
    | ok u => rfl
  have hperm : f.members.Perm [entry.keep, entry.discard] := by
    have hback := (List.perm_insertionSort (· ≤ ·) f.members).symm
    rw [hsorted] at hback
    exact hback.trans (List.perm_insertionSort _ _)
  refine ⟨hok, ?_⟩
  obtain ⟨a, b, hmembers⟩ := List.length_eq_two.mp (findingEligibility_eq_ok hok).2.1
  rw [hmembers] at hperm ⊢
  have ha : a = entry.keep ∨ a = entry.discard := by
    simpa using hperm.subset (List.mem_cons_self (a := a))
  rcases ha with rfl | rfl
  · left
    rw [List.singleton_perm_singleton.mp ((List.perm_cons _).mp hperm)]
  · right
    have hswap := hperm.trans (List.Perm.swap entry.discard entry.keep [])
    rw [List.singleton_perm_singleton.mp ((List.perm_cons _).mp hswap)]

/-- The pair's transaction deletes only what the scan has found twice. -/
theorem recheck_verified (h : recheck job localHour now w = .ok i)
    (hoffers : offers job.finding job.entry = true) :
    job.entry.keep ≠ job.entry.discard ∧
      Verified w job.finding job.entry.keep job.entry.discard := by
  obtain ⟨hinspect, -, hblockers, -⟩ := recheck_eq_ok h
  obtain ⟨kept, discarded, hkept, hdiscarded, -, -, hnone⟩ := inspect_eq_ok hinspect
  obtain ⟨hfile, hother, hshared⟩ := hnone hblockers
  obtain ⟨entry, hentry, hintact⟩ := fileBlocker_eq_nil hfile
  obtain ⟨other, hget, hintact'⟩ := fileBlocker_eq_nil hother
  obtain ⟨hok, hmembers⟩ := offers_members hoffers
  obtain ⟨-, -, byTrack, hevidence⟩ := findingEligibility_eq_ok hok
  rw [hevidence] at hentry hget
  constructor
  · intro heq
    rw [heq, hdiscarded] at hkept
    cases hkept
    rw [sharedFile_self hintact] at hshared
    cases hshared
  · refine ⟨kept, discarded, entry, other, hkept, hdiscarded, hintact, hintact', ?_⟩
    rcases hmembers with hmembers | hmembers
    · obtain ⟨e, e', he, he', hsame⟩ := evidence_pair hevidence hmembers
      cases hentry.symm.trans he
      cases hget.symm.trans he'
      exact hsame
    · obtain ⟨e', e, he', he, hsame⟩ := evidence_pair hevidence hmembers
      cases hentry.symm.trans he
      cases hget.symm.trans he'
      exact hsame.symm

/-! ### What is deleted -/

theorem resolve_tracks : (resolve job w).tracks = w.tracks.erase job.entry.discard := rfl

theorem mem_resolve_additional {track category : ℤ} :
    (track, category) ∈ (resolve job w).additional ↔
      track ≠ job.entry.discard ∧ ((track, category) ∈ w.additional ∨
        track = job.entry.keep ∧ category ∈ job.choice.categories) := by
  simp only [resolve, deleteTrack, addCategories, List.mem_filter, List.mem_append, List.mem_map,
    decide_eq_true_eq, Prod.mk.injEq]
  constructor
  · rintro ⟨hmem | ⟨⟨c, hc, rfl, rfl⟩, -⟩, hne⟩
    · exact ⟨hne, .inl hmem⟩
    · exact ⟨hne, .inr ⟨rfl, hc⟩⟩
  · rintro ⟨hne, hmem | ⟨rfl, hc⟩⟩
    · exact ⟨.inl hmem, hne⟩
    · by_cases hmem : (job.entry.keep, category) ∈ w.additional
      · exact ⟨.inl hmem, hne⟩
      · exact ⟨.inr ⟨⟨category, hc, rfl, rfl⟩, hmem⟩, hne⟩

theorem mem_erase_keys {tracks : Dict TrackId Columns} {other : TrackId} :
    track ∈ (tracks.erase other).keys ↔ track ∈ tracks.keys ∧ track ≠ other := by
  simp only [Dict.keys, Dict.erase, List.mem_map, List.mem_filter, decide_eq_true_eq]
  constructor
  · rintro ⟨item, ⟨hitem, hne⟩, rfl⟩
    exact ⟨⟨item, hitem, rfl⟩, hne⟩
  · rintro ⟨⟨item, hitem, rfl⟩, hne⟩
    exact ⟨item, ⟨hitem, hne⟩, rfl⟩

theorem Verified.mem_keys (h : Verified w f keep discard) : keep ∈ w.tracks.keys := by
  obtain ⟨kept, _, _, _, hkept, _⟩ := h
  exact Dict.mem_keys_of_get? hkept

end IsadoraAir.DuplicateResolution
