import IsadoraAir.DuplicateResolution.Deletions

/-!
# No deletion without its survivor

Every deletion that has been committed is sound, and every Track that there was
at the beginning is connected with one that there still is. Each request keeps
this on its own, whatever the others do between two of its actions.
-/

namespace IsadoraAir.DuplicateResolution

open Routine (Safe Setting Uses)

variable {reports reports' : List Report} {entry : PlanEntry} {nonce scan : String}
  {other track : TrackId} {user : ℕ}

variable {α : Type} {cfg : Config} {start : List TrackId} {a b : α} {s s' : Shared α} {x : Action}
  {plan : Plan} {report : Report} {job : Job}

structure Deletion.Sound (s : Shared α) (d : Deletion) : Prop where
  issued : d.job.plan ∈ s.issued
  entry : d.job.plan.entry = .delete d.job.entry
  report : d.job.report ∈ s.reports
  complete : d.job.report.status = "complete" ∧ d.job.report.scanId = d.job.plan.scan
  finding : d.job.report.finding? d.job.entry.finding = some d.job.finding
  offers : offers d.job.finding d.job.entry = true
  checked : ∃ localHour now i, recheck d.job localHour now d.before = .ok i
  resolved : d.after = resolve d.job d.before

structure Recorded (start : List TrackId) (s : Shared α) : Prop where
  present : s.station ∈ s.past
  previewed : ∀ plan ∈ s.issued, Previewed (s.drawn plan.nonce) plan
  sound : ∀ d ∈ s.ledger, d.Sound s
  survivors : ∀ track ∈ start, ∃ survivor ∈ s.station.tracks.keys,
    Connected s.reports track survivor

variable (cfg start) in
structure Invariant (s : Shared α) : Prop where
  spending : Spending cfg s
  recorded : Recorded start s

/-! ## What grows -/

structure Grows (s s' : Shared α) : Prop where
  issued : s.issued ⊆ s'.issued
  reports : s.reports ⊆ s'.reports
  past : s.past ⊆ s'.past

theorem View.mono {past past' : List Station} {view : Station} (h : View past view)
    (hpast : past ⊆ past') : View past' view where
  tracks := h.tracks.imp fun _ hw => ⟨hpast hw.1, hw.2⟩
  additional := h.additional.imp fun _ hw => ⟨hpast hw.1, hw.2⟩
  lstat path := (h.lstat path).imp fun _ hw => ⟨hpast hw.1, hw.2⟩
  voicetracks := h.voicetracks.imp fun _ hw => ⟨hpast hw.1, hw.2⟩

theorem Linked.mono (h : Linked reports track other) (hreports : reports ⊆ reports') :
    Linked reports' track other := by
  obtain ⟨report, hreport, hlinked⟩ := h
  exact ⟨report, hreports hreport, hlinked⟩

theorem Connected.mono (h : Connected reports track other) (hreports : reports ⊆ reports') :
    Connected reports' track other := by
  induction h with
  | refl => exact .refl
  | tail _ hlinked ih => exact ih.tail (hlinked.mono hreports)

theorem Deletion.Sound.mono {d : Deletion} (h : d.Sound s) (hgrows : Grows s s') : d.Sound s' :=
  { h with issued := hgrows.issued h.issued, report := hgrows.reports h.report }

/-- The station has not changed, or its Tracks are still there. -/
theorem Recorded.of_grows (hs : Recorded start s) (hgrows : Grows s s')
    (hpresent : s'.station ∈ s'.past)
    (hpreviewed : ∀ plan ∈ s'.issued, Previewed (s'.drawn plan.nonce) plan)
    (hledger : s'.ledger = s.ledger)
    (hkeys : ∀ track ∈ s.station.tracks.keys, track ∈ s'.station.tracks.keys) :
    Recorded start s' where
  present := hpresent
  previewed := hpreviewed
  sound d h := (hs.sound d (hledger ▸ h)).mono hgrows
  survivors track h := by
    obtain ⟨survivor, hsurvivor, hconnected⟩ := hs.survivors track h
    exact ⟨survivor, hkeys survivor hsurvivor, hconnected.mono hgrows.reports⟩

theorem keepBoth_tracks (track other : TrackId) (w : Station) :
    (keepBoth track other w).2.tracks = w.tracks := by
  unfold keepBoth
  split_ifs
  · rfl
  · split
    · split_ifs <;> rfl
    · rfl

/-- A complete report that has been published. -/
def Published (s : Shared α) (scan : String) (report : Report) : Prop :=
  report ∈ s.reports ∧ report.status = "complete" ∧ report.scanId = scan

theorem Redeemed.later (h : Redeemed s a plan) (hgrows : Grows s s')
    (hreceived : s'.received a = s.received a) : Redeemed s' a plan :=
  ⟨hgrows.issued h.issued, hreceived ▸ h.received⟩

theorem Holds.later (h : Holds s a plan) (hgrows : Grows s s')
    (hholding : s'.holding a = s.holding a) : Holds s' a plan :=
  ⟨hgrows.issued h.issued, hholding ▸ h.holding⟩

theorem Published.later (h : Published s scan report) (hgrows : Grows s s') :
    Published s' scan report :=
  ⟨hgrows.reports h.1, h.2⟩

/-- What is known of the tokens, after one more. -/
theorem previewed_sign (hs : Recorded start s) (hfresh : nonce ∉ s.issued.map Plan.nonce)
    (hentry : Previewed s.past (newPlan s user scan nonce entry)) :
    ∀ plan ∈ (sign s user scan nonce entry).issued,
      Previewed ((sign s user scan nonce entry).drawn plan.nonce) plan := by
  intro plan hplan
  change Previewed (Function.update s.drawn nonce s.past plan.nonce) plan
  rcases List.mem_append.mp hplan with hold | hnew
  · have hne : plan.nonce ≠ nonce := by
      rintro rfl
      exact hfresh (List.mem_map_of_mem hold)
    rw [Function.update_of_ne hne]
    exact hs.previewed plan hold
  · obtain rfl := List.mem_singleton.mp hnew
    rw [newPlan, Function.update_self]
    exact hentry

theorem invariant_sign (hs : Invariant cfg start s) (hfresh : nonce ∉ s.issued.map Plan.nonce)
    (hentry : Previewed s.past (newPlan s user scan nonce entry)) :
    Invariant cfg start (sign s user scan nonce entry) :=
  ⟨hs.spending.sign hfresh, hs.recorded.of_grows
    ⟨List.subset_append_left _ _, fun _ h => h, fun _ h => h⟩ hs.recorded.present
    (previewed_sign hs.recorded hfresh hentry) rfl fun _ h => h⟩

variable [DecidableEq α]

theorem Effect.grows (h : Effect cfg a s x s') : Grows s s' := by
  cases h with
  | sign => exact ⟨List.subset_append_left _ _, fun _ h => h, fun _ h => h⟩
  | publish => exact ⟨fun _ h => h, List.subset_cons_self _ _, fun _ h => h⟩
  | pair | keepBoth | edit =>
    exact ⟨fun _ h => h, fun _ h => h, List.subset_append_left _ _⟩
  | _ => exact ⟨fun _ h => h, fun _ h => h, fun _ h => h⟩

/-- The deletion is one more, and the survivor takes over. -/
theorem Recorded.commitPair (hs : Recorded start s)
    (hsound : Deletion.Sound (commitPair s a job) ⟨job, s.station, resolve job s.station⟩)
    (hreport : job.report ∈ s.reports) : Recorded start (commitPair s a job) where
  present := List.mem_append_right _ (List.mem_singleton_self _)
  previewed := hs.previewed
  sound d h := by
    rcases List.mem_append.mp h with h | h
    · exact (hs.sound d h).mono
        ⟨fun _ h => h, fun _ h => h, List.subset_append_left _ _⟩
    · rw [List.mem_singleton.mp h]
      exact hsound
  survivors track h := by
    obtain ⟨survivor, hsurvivor, hconnected⟩ := hs.survivors track h
    change ∃ survivor ∈ (resolve job s.station).tracks.keys, _
    simp only [resolve_tracks, mem_erase_keys]
    by_cases heq : survivor = job.entry.discard
    · obtain ⟨_, now, i, hchecked⟩ := hsound.checked
      have hoffers : offers job.finding job.entry = true := hsound.offers
      obtain ⟨hne, hverified⟩ := recheck_verified hchecked hoffers
      obtain ⟨hok, hmembers⟩ := offers_members hoffers
      refine ⟨job.entry.keep, ⟨hverified.mem_keys, hne⟩, hconnected.tail ?_⟩
      refine ⟨job.report, hreport, hsound.complete.1, job.finding,
        (finding?_eq_some hsound.finding).1, hok, ?_⟩
      rw [heq]
      rcases hmembers with hmembers | hmembers <;> simp [hmembers]
    · exact ⟨survivor, ⟨hsurvivor, heq⟩, hconnected⟩

/-! ## The others -/

abbrev service (cfg : Config) (start : List TrackId) (a : α) : Setting Action.Result (Shared α) where
  exec x s r s' := ∃ d, exec cfg d a x s = some (r, s')
  others s s' := Invariant cfg start s ∧ Invariant cfg start s' ∧
    ∃ b, b ≠ a ∧ (s' = s ∨ ∃ d x r, exec cfg d b x s = some (r, s'))
  invariant s := Invariant cfg start s ∧ True

variable (cfg start) in
def assertions : Crew.Assertions (Shared α) α Call :=
  ⟨Invariant cfg start, fun _ _ _ => True, fun _ _ => True⟩

theorem effect_of_others (h : (service cfg start a).others s s') :
    Invariant cfg start s' ∧ ∃ b x, b ≠ a ∧ Effect cfg b s x s' := by
  obtain ⟨-, hinv, b, hb, rfl | ⟨d, x, r, hexec⟩⟩ := h
  · exact ⟨hinv, b, .now, hb, .none _⟩
  · exact ⟨hinv, b, x, hb, exec_effect hexec⟩

theorem Effect.received (h : Effect cfg b s x s') (hab : a ≠ b) : s'.received a = s.received a := by
  cases h with
  | receive => exact Function.update_of_ne hab ..
  | _ => rfl

theorem Effect.holding (h : Effect cfg b s x s') (hab : a ≠ b) : s'.holding a = s.holding a := by
  cases h with
  | spend | pair => exact Function.update_of_ne hab ..
  | _ => rfl

/-- What others leave alone, under the invariant. -/
theorem stable_of {P : Shared α → Prop}
    (h : ∀ s s', P s → Grows s s' → s'.received a = s.received a → s'.holding a = s.holding a →
      P s') : (service cfg start a).Stable fun s => Invariant cfg start s ∧ P s := by
  intro s s' hs hothers
  obtain ⟨hinv, b, x, hb, heffect⟩ := effect_of_others hothers
  exact ⟨hinv, h s s' hs.2 heffect.grows (heffect.received hb.symm) (heffect.holding hb.symm)⟩

/-! ## What one action keeps -/

/-- The actions that need no token. -/
def Ordinary : Action → Prop
  | .sign _ _ (.delete _) | .claim _ | .pair _ => False
  | _ => True

theorem Effect.spending (h : Effect cfg a s x s') (hx : Ordinary x) (hs : Spending cfg s) :
    Spending cfg s' := by
  cases h with
  | spend | pair => exact hx.elim
  | sign user scan nonce entry hfresh => exact hs.sign hfresh
  | purge => exact hs.purge
  | elapse microseconds => exact hs.of_eq rfl (by simp) rfl rfl rfl rfl
  | _ => exact hs.of_eq rfl le_rfl rfl rfl rfl rfl

theorem Effect.recorded (h : Effect cfg a s x s') (hx : Ordinary x) (hs : Recorded start s) :
    Recorded start s' := by
  have hgrows := h.grows
  cases h with
  | spend | pair => exact hx.elim
  | sign user scan nonce entry hfresh =>
    refine hs.of_grows hgrows hs.present (previewed_sign hs hfresh ?_) rfl fun _ h => h
    rintro e rfl
    exact hx.elim
  | keepBoth track other =>
    refine hs.of_grows hgrows (List.mem_append_right _ (List.mem_singleton_self _))
      hs.previewed rfl fun t ht => ?_
    change t ∈ (DuplicateResolution.keepBoth track other s.station).2.tracks.keys
    rwa [keepBoth_tracks]
  | edit f hkeeps =>
    exact hs.of_grows hgrows (List.mem_append_right _ (List.mem_singleton_self _))
      hs.previewed rfl hkeeps
  | _ => exact hs.of_grows hgrows hs.present hs.previewed rfl fun _ h => h

theorem Effect.invariant (h : Effect cfg a s x s') (hx : Ordinary x)
    (hs : Invariant cfg start s) : Invariant cfg start s' :=
  ⟨h.spending hx hs.spending, h.recorded hx hs.recorded⟩

/-- The worker that holds the nonce resolves its pair. -/
theorem invariant_commitPair (hs : Invariant cfg start s) (hheld : Holds s a job.plan)
    (hentry : job.plan.entry = .delete job.entry) (hpublished : Published s job.plan.scan job.report)
    (hfinding : job.report.finding? job.entry.finding = some job.finding)
    (hoffers : offers job.finding job.entry = true) {i : Inspection}
    (hchecked : recheck job cfg.localHour s.clock s.station = .ok i) :
    Invariant cfg start (commitPair s a job) := by
  refine ⟨hs.spending.commitPair hheld, hs.recorded.commitPair ?_ hpublished.1⟩
  exact ⟨hheld.issued, hentry, hpublished.1, hpublished.2, hfinding, hoffers,
    ⟨_, _, i, hchecked⟩, rfl⟩

end IsadoraAir.DuplicateResolution
