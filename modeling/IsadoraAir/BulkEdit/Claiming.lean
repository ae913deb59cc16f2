import IsadoraAir.BulkEdit.Steps
import IsadoraAir.Foundation.Once

/-!
# Each preview is redeemed once

A stale copy of a session can put a claimed record back, but its marker stays
until the record is too old to be redeemed.
-/

namespace IsadoraAir.BulkEdit

variable {records : Dict String Record} {session : String}

variable {ρ α : Type} {cfg : Config} {a : α} {s s' : Shared ρ α} {nonce : String}
  {record : Record} {pending : Pending}

/-- The records are those that previews have issued. -/
def Genuine (records : Dict String Record) (pending : Pending) : Prop :=
  ∀ nonce record, pending.get? nonce = some record → records.get? nonce = some record

variable (cfg) in
/-- Nobody can redeem the record any more: its nonce is marked, or it is too old. -/
def Unavailable (s : Shared ρ α) (nonce : String) (record : Record) : Prop :=
  (∃ expiry, s.markers.get? (claimKey cfg nonce) = some expiry ∧
    record.issued + markerLifetime ≤ expiry) ∨ record.issued + markerLifetime < s.clock

variable (cfg) in
structure Claiming (s : Shared ρ α) : Prop where
  sessions : ∀ session pending, s.sessions.get? session = some pending →
    Genuine s.records pending
  copies : ∀ copy ∈ s.copies, Genuine s.records copy.2
  issued : ∀ nonce record, s.records.get? nonce = some record → record.issued ≤ s.clock
  known : ∀ nonce ∈ s.spent, ∃ record, s.records.get? nonce = some record
  unavailable : ∀ nonce ∈ s.spent, ∀ record, s.records.get? nonce = some record →
    Unavailable cfg s nonce record
  once : Once s.spent s.redeemed s.holding

/-! ## Pending previews -/

theorem get?_restrict {p : String × Record → Bool}
    (h : (restrict pending p).get? nonce = some record) : pending.get? nonce = some record := by
  rw [Dict.get?_eq_some_iff] at h ⊢
  exact (List.mem_filter.mp h).1

theorem Genuine.erase (h : Genuine records pending)
    (nonce : String) : Genuine records (pending.erase nonce) := by
  intro nonce' record hget
  rw [Dict.get?_erase] at hget
  split_ifs at hget
  exact h nonce' record hget

/-- New records leave the old ones. -/
theorem Genuine.insert (h : Genuine records pending)
    (hfresh : nonce ∉ records.keys) : Genuine (records.insert nonce record) pending := by
  intro nonce' record' hget
  have hrecord := h nonce' record' hget
  rw [Dict.get?_insert, if_neg]
  · exact hrecord
  · rintro rfl
    exact hfresh (Dict.mem_keys_of_get? hrecord)

theorem Genuine.addPreview (h : Genuine records pending) (now : ℤ) :
    Genuine (records.insert nonce record) (addPreview pending now nonce record) := by
  intro nonce' record' hget
  have hadded := get?_restrict hget
  rw [Dict.get?_insert] at hadded ⊢
  split_ifs at hadded ⊢
  · exact hadded
  · exact h nonce' record' (get?_restrict hadded)

/-! ## Markers -/

theorem get?_unexpired {markers : Dict String ℤ} {now : ℤ} {key : String} {expiry : ℤ} :
    (unexpired markers now).get? key = some expiry ↔ markers.get? key = some expiry ∧ now ≤ expiry := by
  rw [Dict.get?_eq_some_iff, Dict.get?_eq_some_iff, unexpired, List.mem_filter, decide_eq_true_eq]

/-- Only markers that are of no use any more are removed. -/
theorem Unavailable.unexpired (h : Unavailable cfg s nonce record)
    (hmarkers : s'.markers = unexpired s.markers s.clock) (hclock : s'.clock = s.clock) :
    Unavailable cfg s' nonce record := by
  rcases h with ⟨expiry, hget, hle⟩ | hlt
  · by_cases hexpired : s.clock ≤ expiry
    · refine .inl ⟨expiry, ?_, hle⟩
      rw [hmarkers, get?_unexpired]
      exact ⟨hget, hexpired⟩
    · right
      rw [hclock]
      exact hle.trans_lt (not_le.mp hexpired)
  · exact .inr (hclock ▸ hlt)

theorem Unavailable.mono (h : Unavailable cfg s nonce record) (hmarkers : s'.markers = s.markers)
    (hclock : s.clock ≤ s'.clock) : Unavailable cfg s' nonce record := by
  rcases h with ⟨expiry, hget, hle⟩ | hlt
  · exact .inl ⟨expiry, hmarkers ▸ hget, hle⟩
  · exact .inr (hlt.trans_le hclock)

/-- A record that is claimed in time is claimed for the first time. -/
theorem Claiming.not_spent (hs : Claiming cfg s) (hrecord : s.records.get? nonce = some record)
    (htimely : isTimely s record = true)
    (hfree : (unexpired s.markers s.clock).get? (claimKey cfg nonce) = none) :
    nonce ∉ s.spent := by
  intro hspent
  simp only [isTimely, decide_eq_true_eq] at htimely
  rcases hs.unavailable nonce hspent record hrecord with ⟨expiry, hget, hle⟩ | hlate
  · by_cases hexpired : s.clock ≤ expiry
    · rw [get?_unexpired.mpr ⟨hget, hexpired⟩] at hfree
      cases hfree
    · simp only [markerLifetime] at hle
      omega
  · simp only [markerLifetime] at hlate
    omega

/-! ## What an action keeps -/

/-- The sessions, their copies and the records may be others. -/
theorem Claiming.of_records (hs : Claiming cfg s)
    (hsessions : ∀ session pending, s'.sessions.get? session = some pending →
      Genuine s'.records pending)
    (hcopies : ∀ copy ∈ s'.copies, Genuine s'.records copy.2)
    (hrecords : ∀ nonce ∈ s.spent, s'.records.get? nonce = s.records.get? nonce)
    (hissued : ∀ nonce record, s'.records.get? nonce = some record → record.issued ≤ s'.clock)
    (hunavailable : ∀ nonce record, Unavailable cfg s nonce record →
      Unavailable cfg s' nonce record)
    (hspent : s'.spent = s.spent) (hholding : s'.holding = s.holding)
    (hredeemed : s'.redeemed = s.redeemed) : Claiming cfg s' where
  sessions := hsessions
  copies := hcopies
  issued := hissued
  known nonce h := by
    rw [hspent] at h
    rw [hrecords nonce h]
    exact hs.known nonce h
  unavailable nonce h record hrecord := by
    rw [hspent] at h
    rw [hrecords nonce h] at hrecord
    exact hunavailable nonce record (hs.unavailable nonce h record hrecord)
  once := by
    rw [hspent, hholding, hredeemed]
    exact hs.once

/-- Nothing of this changes. -/
theorem Claiming.of_eq (hs : Claiming cfg s) (hsessions : s'.sessions = s.sessions)
    (hcopies : s'.copies = s.copies) (hrecords : s'.records = s.records)
    (hclock : s.clock ≤ s'.clock) (hmarkers : s'.markers = s.markers)
    (hspent : s'.spent = s.spent) (hholding : s'.holding = s.holding)
    (hredeemed : s'.redeemed = s.redeemed) : Claiming cfg s' := by
  refine hs.of_records ?_ ?_ (fun _ _ => by rw [hrecords]) ?_
    (fun _ _ h => h.mono hmarkers hclock) hspent hholding hredeemed
  · rw [hsessions, hrecords]
    exact hs.sessions
  · rw [hcopies, hrecords]
    exact hs.copies
  · rw [hrecords]
    exact fun nonce record h => (hs.issued nonce record h).trans hclock

/-- A session's row is written with genuine records. -/
theorem Claiming.setSession (hs : Claiming cfg s) (hpending : Genuine s.records pending)
    (session : String) : Claiming cfg (s.setSession session pending) := by
  refine hs.of_records (fun session' pending' h => ?_) (fun copy h => ?_) (fun _ _ => rfl) hs.issued
    (fun _ _ h => h.mono rfl le_rfl) rfl rfl rfl
  · change (s.sessions.insert session pending).get? session' = some pending' at h
    rw [Dict.get?_insert] at h
    split_ifs at h
    · cases h
      exact hpending
    · exact hs.sessions session' pending' h
  · rcases List.mem_append.mp h with h | h
    · exact hs.copies copy h
    · rw [List.mem_singleton.mp h]
      exact hpending

theorem Claiming.issue (hs : Claiming cfg s) (hfresh : nonce ∉ s.records.keys)
    (hissued : record.issued ≤ s.clock) : Claiming cfg (issue s session nonce record).2 := by
  unfold BulkEdit.issue
  split
  · exact hs
  · next pending hpending =>
    have hspent : ∀ nonce' ∈ s.spent,
        (s.records.insert nonce record).get? nonce' = s.records.get? nonce' := by
      intro nonce' h
      obtain ⟨record', hrecord⟩ := hs.known nonce' h
      rw [Dict.get?_insert, if_neg]
      rintro rfl
      exact hfresh (Dict.mem_keys_of_get? hrecord)
    refine hs.of_records (fun session' pending' h => ?_) (fun copy h => ?_) hspent
      (fun nonce' record' h => ?_) (fun _ _ h => h.mono rfl le_rfl) rfl rfl rfl
    · change (s.sessions.insert session _).get? session' = some pending' at h
      rw [Dict.get?_insert] at h
      split_ifs at h
      · cases h
        exact (hs.sessions session pending hpending).addPreview s.clock
      · exact (hs.sessions session' pending' h).insert hfresh
    · rcases List.mem_append.mp h with h | h
      · exact (hs.copies copy h).insert hfresh
      · rw [List.mem_singleton.mp h]
        exact (hs.sessions session pending hpending).addPreview s.clock
    · change (s.records.insert nonce record).get? nonce' = some record' at h
      rw [Dict.get?_insert] at h
      split_ifs at h
      · cases h
        exact hissued
      · exact hs.issued nonce' record' h

theorem Claiming.saveSession (hs : Claiming cfg s) (session : String) (copy : ℕ) :
    Claiming cfg (saveSession s session copy) := by
  unfold BulkEdit.saveSession
  split
  · next owner pending hcopy =>
    split_ifs
    · exact hs.setSession (hs.copies _ (List.mem_of_getElem? hcopy)) session
    · exact hs
  · exact hs

theorem Claiming.openSession (hs : Claiming cfg s) (session : String) :
    Claiming cfg (openSession s session) := by
  unfold BulkEdit.openSession
  split_ifs
  · exact hs
  · exact hs.setSession (fun _ _ h => by cases h) session

theorem Claiming.closeSession (hs : Claiming cfg s) (session : String) :
    Claiming cfg { s with sessions := s.sessions.erase session } := by
  refine hs.of_records (fun session' pending' h => ?_) hs.copies (fun _ _ => rfl) hs.issued
    (fun _ _ h => h.mono rfl le_rfl) rfl rfl rfl
  change (s.sessions.erase session).get? session' = some pending' at h
  rw [Dict.get?_erase] at h
  split_ifs at h
  exact hs.sessions session' pending' h

theorem Claiming.unexpired (hs : Claiming cfg s) :
    Claiming cfg { s with markers := unexpired s.markers s.clock } :=
  hs.of_records hs.sessions hs.copies (fun _ _ => rfl) hs.issued
    (fun _ _ h => h.unexpired rfl rfl) rfl rfl rfl

variable [DecidableEq α]

/-- The claim of a record that is in time. -/
theorem claimed_unavailable (hs : Claiming cfg s) {other : String} {record' : Record}
    (hother : s.records.get? other = some record')
    (h : other = nonce ∨ Unavailable cfg s other record') :
    Unavailable cfg (claimed cfg s a session nonce pending record) other record' := by
  have hissued := hs.issued other record' hother
  by_cases hkey : claimKey cfg other = claimKey cfg nonce
  · refine .inl ⟨s.clock + markerLifetime, ?_, by omega⟩
    simp [claimed, hkey]
  · have hne : other ≠ nonce := fun heq => hkey (heq ▸ rfl)
    rcases h.resolve_left hne with ⟨expiry, hget, hle⟩ | hlt
    · by_cases hexpired : s.clock ≤ expiry
      · refine .inl ⟨expiry, ?_, hle⟩
        simp only [claimed, Dict.get?_insert, if_neg hkey]
        exact get?_unexpired.mpr ⟨hget, hexpired⟩
      · exact .inr (hle.trans_lt (not_le.mp hexpired))
    · exact .inr hlt

/-- What is spent, and who holds it. -/
theorem claimed_once (hs : Claiming cfg s) (hnew : isTimely s record = true → nonce ∉ s.spent) :
    Once (claimed cfg s a session nonce pending record).spent s.redeemed
      (claimed cfg s a session nonce pending record).holding := by
  unfold claimed
  dsimp only
  split_ifs with htimely
  · exact hs.once.spend (hnew htimely)
  · exact hs.once.release

theorem mem_claimed_spent {other : String}
    (h : other ∈ (claimed cfg s a session nonce pending record).spent) :
    other = nonce ∨ other ∈ s.spent := by
  unfold claimed at h
  dsimp only at h
  split_ifs at h
  · exact (List.mem_append.mp h).symm.imp_left List.mem_singleton.mp
  · exact .inr h

theorem Claiming.claimed (hs : Claiming cfg s)
    (hsession : s.sessions.get? session = some pending) (hrecord : pending.get? nonce = some record)
    (hfree : (BulkEdit.unexpired s.markers s.clock).get? (claimKey cfg nonce) = none) :
    Claiming cfg (claimed cfg s a session nonce pending record) := by
  have hpending := hs.sessions session pending hsession
  have hknown := hpending nonce record hrecord
  have hset := hs.setSession (hpending.erase nonce) session
  refine ⟨hset.sessions, hset.copies, hs.issued, fun other h => ?_, fun other h record' hget => ?_,
    claimed_once hs fun htimely => hs.not_spent hknown htimely hfree⟩
  · rcases mem_claimed_spent h with rfl | h
    · exact ⟨record, hknown⟩
    · exact hs.known other h
  · refine claimed_unavailable hs hget ((mem_claimed_spent h).imp_right fun h => ?_)
    exact hs.unavailable other h record' hget

theorem Claiming.claimNonce (hs : Claiming cfg s) (session nonce : String) :
    Claiming cfg (claimNonce cfg s a session nonce).2 := by
  unfold BulkEdit.claimNonce
  split
  · exact hs
  · next pending hsession =>
    split
    · exact hs
    · next record hrecord =>
      split_ifs with hmarked
      · exact (hs.setSession ((hs.sessions session pending hsession).erase nonce) session).unexpired
      · exact hs.claimed hsession hrecord (by simpa using hmarked)

/-- The holder of the nonce redeems it. -/
theorem Claiming.redeemNonce (hs : Claiming cfg s) (hheld : s.holding a = some nonce) :
    Claiming cfg (redeemNonce s a nonce) :=
  ⟨hs.sessions, hs.copies, hs.issued, hs.known, hs.unavailable, hs.once.finish hheld⟩

end IsadoraAir.BulkEdit
