import IsadoraAir.DuplicateResolution.Safety

/-!
# Previews and apply requests are safe

Each request on its own: what a preview signs it has seen, and what an apply
request deletes it has redeemed, claimed and found in a complete report.
-/

namespace IsadoraAir.DuplicateResolution

open Routine (Safe Setting Uses)

variable {f : Finding} {o : Observed} {token : Option Token} {plan : Plan} {report : Report}
  {discard keep : TrackId} {user : ℕ} {now : ℤ}

variable {α : Type} {cfg : Config} {start : List TrackId} {a : α} {s : Shared α} {β : Type}
  {P : Shared α → Prop}

theorem loadToken_eq_ok {token : Token} (h : loadToken s token = .ok plan) :
    plan ∈ s.issued ∧ s.clock ≤ plan.signedAt + tokenMaxAge := by
  obtain ⟨plan', hplan, h⟩ := orRaise_bind_eq_ok.mp h
  obtain ⟨hage, h⟩ := raiseIf_bind_eq_ok.mp h
  cases h
  exact ⟨List.mem_of_getElem? hplan, by omega⟩

variable [DecidableEq α] {Q : Except Refusal β → Shared α → Prop}

/-! ## Rules -/

theorem stable_invariant : (service cfg start a).Stable (Invariant cfg start) :=
  fun _ _ _ hothers => hothers.2.1

theorem ordinary_safe {m : Service β} (hm : m.Uses Ordinary) (hs : Invariant cfg start s) :
    m.Safe (service cfg start a) s fun _ => Invariant cfg start := by
  refine Uses.safe hm hs stable_invariant (fun s h => ⟨h, trivial⟩) ?_
  rintro x s r s' hx hs ⟨d, hexec⟩
  exact (exec_effect hexec).invariant hx hs

/-- An action that only reads. -/
theorem read_safe {x : Action} {f : x.Result → Service β} (hs : Invariant cfg start s ∧ P s)
    (hstable : (service cfg start a).Stable fun s => Invariant cfg start s ∧ P s)
    (hread : ∀ d s r s', exec cfg d a x s = some (r, s') → s' = s)
    (hf : ∀ d s r s', exec cfg d a x s = some (r, s') → Invariant cfg start s → P s →
      (f r).Safe (service cfg start a) s Q) :
    (perform x >>= f).Safe (service cfg start a) s Q := by
  refine Safe.perform_bind hs hstable (fun s h => ⟨h.1, trivial⟩) ?_
  rintro s r s' hs ⟨d, hexec⟩
  obtain rfl := hread d s r s' hexec
  exact hf d s' r s' hexec hs.1 hs.2

/-- A failed check raises, and nothing else. -/
theorem check_safe {x : Except Refusal β} (hs : Invariant cfg start s) (hP : P s) :
    (check x).Safe (service cfg start a) s fun r s =>
      (Invariant cfg start s ∧ P s) ∧ ∀ b, r = .ok b → x = .ok b := by
  cases x with
  | ok b => exact ⟨⟨hs, hP⟩, fun c hc => hc⟩
  | error e => exact ⟨⟨hs, hP⟩, fun c hc => by cases hc⟩

/-- The report that is returned has been published. -/
theorem latestReport_safe (scan : String) (hs : Invariant cfg start s ∧ P s)
    (hstable : (service cfg start a).Stable fun s => Invariant cfg start s ∧ P s) :
    (latestReport scan).Safe (service cfg start a) s fun r s =>
      Invariant cfg start s ∧ P s ∧ ∀ report, r = .ok report → Published s scan report := by
  refine read_safe hs hstable (fun d s r s' h => by cases h; rfl) fun d s r s' hexec hs hP => ?_
  cases hexec
  split
  · next report hreport =>
    split_ifs with hscan hstatus
    · exact ⟨hs, hP, fun _ h => by cases h⟩
    · exact ⟨hs, hP, fun _ h => by cases h⟩
    · refine ⟨hs, hP, fun report' h => ?_⟩
      cases h
      exact ⟨List.mem_of_head? hreport, not_not.mp hstatus, not_not.mp hscan⟩
  · exact ⟨hs, hP, fun _ h => by cases h⟩

/-! ## Preview -/

theorem look_safe {f : Station → Service β} (hs : Invariant cfg start s ∧ P s)
    (hstable : (service cfg start a).Stable fun s => Invariant cfg start s ∧ P s)
    (hf : ∀ w s, Invariant cfg start s → P s → w ∈ s.past →
      (f w).Safe (service cfg start a) s Q) :
    (perform .look >>= f).Safe (service cfg start a) s Q := by
  refine read_safe hs hstable (fun d s r s' h => by cases h; rfl) fun d s r s' hexec hs hP => ?_
  cases hexec
  exact hf s.station s hs hP hs.recorded.present

/-- What has been seen stays in the past. -/
theorem stable_seen (views : List Station) :
    (service cfg start a).Stable fun s => Invariant cfg start s ∧ views ⊆ s.past :=
  stable_of fun _ _ h hgrows _ _ => List.Subset.trans h hgrows.past

theorem stable_view (view : Station) :
    (service cfg start a).Stable fun s => Invariant cfg start s ∧ View s.past view :=
  stable_of fun _ _ h hgrows _ _ => h.mono hgrows.past

theorem observe_safe (hs : Invariant cfg start s) :
    (observe keep).Safe (service cfg start a) s fun r s =>
      Invariant cfg start s ∧ ∀ view, r = .ok view → View s.past view := by
  refine look_safe ⟨hs, List.nil_subset _⟩ (stable_seen []) fun rows s hs h₀ hrows => ?_
  refine look_safe ⟨hs, List.cons_subset.mpr ⟨hrows, h₀⟩⟩ (stable_seen _)
    fun categories s hs h₁ hcategories => ?_
  refine look_safe ⟨hs, List.cons_subset.mpr ⟨hcategories, h₁⟩⟩ (stable_seen _)
    fun keptFile s hs h₂ hkept => ?_
  refine look_safe ⟨hs, List.cons_subset.mpr ⟨hkept, h₂⟩⟩ (stable_seen _)
    fun discardedFile s hs h₃ hdiscarded => ?_
  refine look_safe ⟨hs, List.cons_subset.mpr ⟨hdiscarded, h₃⟩⟩ (stable_seen _)
    fun rest s hs h₄ hrest => ?_
  refine ⟨hs, fun view hview => ?_⟩
  cases hview
  simp only [List.cons_subset] at h₄
  refine ⟨⟨rows, h₄.2.2.2.1, rfl⟩, ⟨categories, h₄.2.2.1, rfl⟩, fun path => ?_,
    ⟨rest, hrest, rfl⟩⟩
  dsimp only
  split_ifs
  · exact ⟨keptFile, h₄.2.1, rfl⟩
  · exact ⟨discardedFile, h₄.1, rfl⟩

/-- What an inspection finds, a token says. -/
theorem matches_of_inspect {localHour : ℤ → ℤ × ℕ} {view : Station} {i : Inspection}
    (h : inspect f keep discard o localHour now view = .ok i) :
    Matches view ⟨f.id, keep, discard, i.fingerprints, i.suggestions, i.voicetracks⟩ := by
  obtain ⟨kept, discarded, hkept, hdiscarded, hfingerprints, hcount, -⟩ := inspect_eq_ok h
  exact ⟨kept, discarded, hkept, hdiscarded, hfingerprints, hcount⟩

theorem previewDelete_safe (hs : Invariant cfg start s) :
    (previewDelete cfg user report f keep discard o now).Safe (service cfg start a) s
      fun _ => Invariant cfg start := by
  unfold previewDelete
  split
  · exact hs
  · split_ifs
    · exact hs
    · refine Safe.bind (observe_safe hs) (fun view s h => ?_) fun e s h => h.1
      have hview := h.2 view rfl
      split
      · exact h.1
      · next i hi =>
        by_cases hblockers : i.blockers ≠ []
        · rw [if_pos hblockers]
          exact h.1
        · rw [if_neg hblockers]
          refine Safe.perform_bind ⟨h.1, hview⟩ (stable_view view) (fun s h => ⟨h.1, trivial⟩) ?_
          rintro s r s' ⟨hs, hview⟩ ⟨d, hexec⟩
          cases exec_effect hexec with
          | none => exact hs
          | sign user scan nonce entry hfresh =>
            refine invariant_sign hs hfresh fun e he => ⟨view, hview, ?_⟩
            cases he
            exact matches_of_inspect hi

theorem previewItem_safe {selection : Selection} (hs : Invariant cfg start s) :
    (previewItem cfg user report o now selection).Safe (service cfg start a) s
      fun _ => Invariant cfg start := by
  unfold previewItem
  split
  · exact hs
  · split
    · split_ifs
      · exact hs
      · exact ordinary_safe (Uses.bind (Uses.perform trivial) fun _ => Uses.pure) hs
    · exact previewDelete_safe hs

theorem previewItems_safe
    {conflicting : List ℕ} {items : List (Selection × ℕ)} (hs : Invariant cfg start s) :
    (previewItems cfg user report o now conflicting items).Safe (service cfg start a) s
      fun _ => Invariant cfg start := by
  induction items generalizing s with
  | nil => exact hs
  | cons item rest ih =>
    have hitem : (previewSelection cfg user report o now conflicting item.1 item.2).Safe
        (service cfg start a) s fun _ => Invariant cfg start := by
      unfold previewSelection
      split_ifs
      · exact hs
      · exact previewItem_safe hs
    refine Safe.bind hitem (fun _ s hs => ?_) fun _ _ h => h
    exact Safe.bind (ih hs) (fun _ _ h => h) fun _ _ h => h

theorem preview_safe {scan : String} {raw : Option (List RawSelection)}
    (hs : Invariant cfg start s) :
    (preview cfg user scan raw).Safe (service cfg start a) s fun _ => Invariant cfg start := by
  have hstable : (service cfg start a).Stable fun s => Invariant cfg start s ∧ True :=
    fun s s' hs hothers => ⟨hothers.2.1, trivial⟩
  refine Safe.bind (latestReport_safe scan ⟨hs, trivial⟩ hstable) (fun report s h => ?_)
    fun _ _ h => h.1
  refine Safe.bind (check_safe (P := fun _ => True) h.1 trivial) (fun selections s h => ?_) fun _ _ h => h.1.1
  refine read_safe h.1 hstable (fun d s r s' h => by cases h; rfl) fun _ s protection _ _ hs _ => ?_
  refine read_safe ⟨hs, trivial⟩ hstable (fun d s r s' h => by cases h; rfl)
    fun _ s now _ _ hs _ => ?_
  refine read_safe ⟨hs, trivial⟩ hstable (fun d s r s' h => by cases h; rfl)
    fun _ s engine _ _ hs _ => ?_
  exact previewItems_safe hs

/-! ## Apply -/

theorem redeem_safe (hs : Invariant cfg start s) :
    (redeem token user).Safe (service cfg start a) s fun r s =>
      Invariant cfg start s ∧ ∀ plan, r = .ok plan → Redeemed s a plan := by
  cases token with
  | none => exact ⟨hs, fun _ h => by cases h⟩
  | some token =>
    refine Safe.perform_bind hs stable_invariant (fun s h => ⟨h, trivial⟩) ?_
    rintro s r s' hs ⟨d, hexec⟩
    cases hexec
    have hs' : Invariant cfg start (receive s a) := (Effect.receive token).invariant trivial hs
    split
    · exact ⟨hs', fun _ h => by cases h⟩
    · exact ⟨hs', fun _ h => by cases h⟩
    · next plan hplan =>
      obtain ⟨hissued, hage⟩ := loadToken_eq_ok hplan
      split_ifs
      · exact ⟨hs', fun _ h => by cases h⟩
      · refine ⟨hs', fun plan' h => ?_⟩
        cases h
        refine ⟨hissued, ?_⟩
        change Function.update s.received a s.clock a ≤ _
        rw [Function.update_self]
        exact hage

theorem stable_redeemed (plan : Plan) :
    (service cfg start a).Stable fun s => Invariant cfg start s ∧ Redeemed s a plan :=
  stable_of fun _ _ h hgrows hreceived _ => h.later hgrows hreceived

theorem stable_due (plan : Plan) (report : Report) :
    (service cfg start a).Stable fun s =>
      Invariant cfg start s ∧ Redeemed s a plan ∧ Published s plan.scan report :=
  stable_of fun _ _ h hgrows hreceived _ => ⟨h.1.later hgrows hreceived, h.2.later hgrows⟩

/-- What an apply request relies on once it has spent its token. -/
def Granted (s : Shared α) (a : α) (plan : Plan) (report : Report) : Prop :=
  Holds s a plan ∧ Published s plan.scan report

theorem stable_granted (plan : Plan) (report : Report) :
    (service cfg start a).Stable fun s => Invariant cfg start s ∧ Granted s a plan report :=
  stable_of fun _ _ h hgrows _ hholding => ⟨h.1.later hgrows hholding, h.2.later hgrows⟩

theorem claim_safe (hs : Invariant cfg start s)
    (hredeemed : Redeemed s a plan) (hpublished : Published s plan.scan report) :
    (claim plan.nonce).Safe (service cfg start a) s fun r s =>
      Invariant cfg start s ∧ (r = .ok () → Granted s a plan report) := by
  refine Safe.perform_bind ⟨hs, hredeemed, hpublished⟩ (stable_due plan report)
    (fun s h => ⟨h.1, trivial⟩) ?_
  rintro s r s' ⟨hs, hredeemed, hpublished⟩ ⟨d, hexec⟩
  change claimNonce cfg s a plan.nonce d.busy = some (r, s') at hexec
  unfold claimNonce at hexec
  split_ifs at hexec with hlate hbusy hused
  · cases hexec
    exact ⟨hs, fun h => by cases h⟩
  · cases hexec
    exact ⟨hs, fun h => by cases h⟩
  · cases hexec
    have hspent := hs.spending.not_spent hredeemed (not_lt.mp hlate) (by simpa using hused)
    have hgranted : Granted (spend cfg s a plan.nonce) a plan report :=
      ⟨⟨hredeemed.issued, Function.update_self ..⟩, hpublished⟩
    have hinv : Invariant cfg start (spend cfg s a plan.nonce) :=
      ⟨hs.spending.spend hredeemed.issued hspent, hs.recorded.of_grows
        ⟨fun _ h => h, fun _ h => h, fun _ h => h⟩ hs.recorded.present hs.recorded.previewed rfl
        fun _ h => h⟩
    refine Safe.perform ⟨hinv, hgranted⟩ (stable_granted plan report)
      (fun s h => ⟨h.1, trivial⟩) ?_
    rintro s r s' ⟨hs, hgranted⟩ ⟨d, hexec⟩
    refine ⟨(exec_effect hexec).invariant trivial hs, fun _ => ?_⟩
    cases exec_effect hexec with
    | none => exact hgranted
    | purge => exact ⟨⟨hgranted.1.issued, hgranted.1.holding⟩, hgranted.2⟩

theorem applyDelete_safe {entry : DeleteEntry} {choice : Choice} (hs : Invariant cfg start s)
    (hgranted : Granted s a plan report) (hentry : plan.entry = .delete entry) :
    (applyDelete plan report (report.finding? entry.finding) entry choice o).Safe
      (service cfg start a) s fun _ => Invariant cfg start := by
  unfold applyDelete
  split
  · exact hs
  · next f hfinding =>
    split_ifs with hoffers
    · exact hs
    · refine Safe.perform ⟨hs, hgranted⟩ (stable_granted plan report)
        (fun s h => ⟨h.1, trivial⟩) ?_
      rintro s r s' ⟨hs, hheld, hpublished⟩ ⟨d, hexec⟩
      cases exec_effect hexec with
      | none => exact hs
      | pair job i hchecked =>
        exact invariant_commitPair hs hheld hentry hpublished hfinding
          (by simpa using hoffers) hchecked
    · exact hs

theorem apply_safe {rawChoice : Option RawChoice} {confirm : Bool} (hs : Invariant cfg start s) :
    (apply token rawChoice confirm user).Safe (service cfg start a) s
      fun _ => Invariant cfg start := by
  refine Safe.bind (redeem_safe hs) (fun plan s h => ?_) fun _ _ h => h.1
  refine Safe.bind (check_safe (P := fun s => Redeemed s a plan) h.1 (h.2 plan rfl)) (fun choice s h => ?_) fun _ _ h => h.1.1
  obtain ⟨⟨hs, hredeemed⟩, -⟩ := h
  have hreport {s : Shared α} (hs : Invariant cfg start s) (hredeemed : Redeemed s a plan) :=
    latestReport_safe plan.scan ⟨hs, hredeemed⟩ (stable_redeemed plan)
  split
  · next entry hentry =>
    refine Safe.bind (check_safe (P := fun s => Redeemed s a plan) hs hredeemed) (fun _ s h => ?_) fun _ _ h => h.1.1
    refine Safe.bind (hreport h.1.1 h.1.2) (fun report s h => ?_) fun _ _ h => h.1
    refine Safe.bind (claim_safe h.1 h.2.1 (h.2.2 report rfl)) (fun _ s h => ?_) fun _ _ h => h.1
    have hstable : (service cfg start a).Stable fun s =>
        Invariant cfg start s ∧ Granted s a plan report := stable_granted plan report
    refine read_safe ⟨h.1, h.2 rfl⟩ hstable (fun d s r s' h => by cases h; rfl)
      fun _ s engine _ _ hs hgranted => ?_
    refine read_safe ⟨hs, hgranted⟩ hstable (fun d s r s' h => by cases h; rfl)
      fun _ s protection _ _ hs hgranted => ?_
    exact applyDelete_safe hs hgranted hentry
  · refine Safe.bind (hreport hs hredeemed) (fun report s h => ?_) fun _ _ h => h.1
    refine Safe.bind (claim_safe h.1 h.2.1 (h.2.2 report rfl)) (fun _ s h => ?_) fun _ _ h => h.1
    refine ordinary_safe ?_ h.1
    unfold applyKeepBoth
    split
    · split_ifs
      · exact Uses.pure
      · exact Uses.perform trivial
    · exact Uses.pure

end IsadoraAir.DuplicateResolution
