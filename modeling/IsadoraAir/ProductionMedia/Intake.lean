import IsadoraAir.ProductionMedia.Sparing

/-!
# An ingest is safe

The bytes that become permanent are those that have been written, and the row
describes them. Bytes without a row are given up by their ingest.
-/

namespace IsadoraAir.ProductionMedia

open Routine (Safe Uses)

variable {prohibited : Bool} {r : Request}

variable {α : Type} {sha256 : Bytes → String} {s s' : Shared α} {a : α} {β : Type}
  {P : Shared α → Prop} {part : Uuid} {id : MediaId} {written : Bytes}

/-- The staging file that the agent has opened holds these bytes, if it is still there. -/
structure Staged (a : α) (part : Uuid) (written : Bytes) (s : Shared α) : Prop where
  clean : Clean a s
  uploads : s.uploads a = some part
  bytes : ∀ f, s.parts.get? part = some f → f.bytes = written

theorem kept_staged : Kept a (Staged a part written) := by
  intro s s' h hspares
  refine ⟨kept_clean s s' h.clean hspares, hspares.uploads.trans h.uploads, fun f hf => ?_⟩
  obtain ⟨f₀, hf₀, heq⟩ := hspares.part part f h.uploads hf
  exact heq.trans (h.bytes f₀ hf₀)

/-- A staged upload with its name to come. -/
structure Named (a : α) (part : Uuid) (id : MediaId) (written : Bytes) (s : Shared α) : Prop where
  staged : Staged a part written s
  reserved : s.reserved a = some id

theorem kept_named : Kept a (Named a part id written) :=
  fun s s' h hspares => ⟨kept_staged s s' h.staged hspares, hspares.reserved.trans h.reserved⟩

/-- The bytes that the agent has in flight. -/
def Bears (a : α) (id : MediaId) (written : Bytes) (s : Shared α) : Prop :=
  ∃ p, s.inflight a = some p ∧ p.id = id ∧ p.bytes = written

theorem kept_bears : Kept a (Bears a id written) := by
  rintro s s' ⟨p, hp, h⟩ hspares
  exact ⟨p, hspares.inflight.trans hp, h⟩

/-- Promoted bytes, outside of any transaction. -/
structure Promoted (a : α) (id : MediaId) (written : Bytes) (s : Shared α) : Prop where
  session : s.store.Clean a
  bears : Bears a id written s

theorem kept_promoted : Kept a (Promoted a id written) :=
  fun s s' h hspares => ⟨hspares.session.clean h.session, kept_bears s s' h.bears hspares⟩

theorem staging_promoted : Staging (Promoted a id written) := fun _ _ h => ⟨h.session, h.bears⟩

/-- The name of an agent's bytes in flight, once it has given them up. -/
theorem unowned_own [DecidableEq α] (hs : Invariant sha256 s) {p : Promotion}
    (hp : s.inflight a = some p) (result : Unlinked) :
    Unowned (unlink s a p.key result) p.key := by
  have hflying := hs.inflight a p hp
  have hkey {id : MediaId} (h : storageKeyFor id = p.key) : id = p.id := storageKeyFor_injective h
  refine ⟨⟨hflying.drawn, fun c id hid heq => ?_, fun c q hq heq => ?_⟩, fun id row hrow heq => ?_⟩
  · exact hflying.reserved c (hkey heq ▸ hid)
  · have hinflight : (unlink s a p.key result).inflight = Function.update s.inflight a none := by
      simp [unlink, hp]
    rw [hinflight] at hq
    obtain ⟨hc, hold⟩ := update_none_eq_some hq
    exact absurd (hs.inflightOnce c a q p hold hp (hkey heq)) hc
  · have hid : id = p.id := hkey ((hs.sound.keys id row hrow).symm.trans heq)
    cases hflying.new.symm.trans (hid ▸ hrow)

variable [DecidableEq α]

/-- An ingest gives up its bytes. -/
theorem giveUp_safe {f : Unlinked → Service β} {R : Except Refusal β → Shared α → Prop}
    (hs : Invariant sha256 s) (h : Promoted a id written s)
    (hf : ∀ r s, Invariant sha256 s → Clean a s → (f r).Safe (service sha256 a) s R) :
    (perform (.unlink (storageKeyFor id)) >>= f).Safe (service sha256 a) s R := by
  refine act_safe hs h kept_promoted fun d s r s' hs h _ hexec => ?_
  cases hexec
  obtain ⟨p, hp, rfl, -⟩ := h.bears
  have hunowned := unowned_own hs hp (unlinkFile s.files p.key d.fault)
  refine hf _ _ (hs.unlink h.session.pending hunowned) ⟨h.session, ?_⟩
  simp [unlink, hp]

/-! ## Staging -/

theorem sync_uses (refusal : Refusal) : (sync refusal).Uses Quiet := by
  refine (Uses.perform trivial).bind fun succeeded => ?_
  split
  · exact .pure
  · exact .raise

theorem checkRequest_uses (r : Request) : (checkRequest r).Uses Quiet := by
  unfold checkRequest
  split_ifs
  · exact .raise
  · exact .raise
  · split
    · exact .pure
    · refine (Uses.perform trivial).bind fun row => ?_
      split
      · exact .pure
      · exact .raise

theorem analyze_uses (r : Request) : (analyze r).Uses Quiet := by
  unfold analyze
  by_cases hvalidate : r.validate = true
  · rw [if_pos hvalidate]
    refine (Uses.perform trivial).bind fun outcome => ?_
    rcases outcome with _ | ⟨fits⟩ | _ | _
    · exact .raise
    · cases fits
      · exact .raise
      · exact .pure
    · dsimp only
      split
      · exact .pure
      · exact .raise
    · exact .pure
  · rw [if_neg hvalidate]
    exact .pure

omit [DecidableEq α] in
/-- A chunk is appended to what has been staged. -/
theorem staged_writeChunk (h : Staged a part written s) (bytes : Bytes) :
    Staged a part (written ++ bytes) (writeChunk s a bytes) := by
  have hwrite : writeChunk s a bytes = { s with parts := appendPart s.parts part bytes s.clock } := by
    simp only [writeChunk, h.uploads]
  rw [hwrite]
  refine ⟨⟨h.clean.session, h.clean.inflight⟩, h.uploads, fun f hf => ?_⟩
  change (appendPart s.parts part bytes s.clock).get? part = some f at hf
  unfold appendPart at hf
  split at hf
  · next file hfile =>
    rw [Dict.get?_insert_self] at hf
    cases hf
    exact congrArg (· ++ bytes) (h.bytes file hfile)
  · next hnone =>
    rw [hnone] at hf
    cases hf

theorem stream_safe (maxBytes : ℕ) (source : List Chunk) (hs : Invariant sha256 s)
    (h : Staged a part written s) :
    (stream maxBytes source written).Safe (service sha256 a) s
      (Ends sha256 (fun written s => Staged a part written s) (Clean a)) := by
  induction source generalizing written s with
  | nil => exact ⟨hs, h⟩
  | cons chunk rest ih =>
    cases chunk with
    | failed => exact ⟨hs, h.clean⟩
    | notBytes => exact ⟨hs, h.clean⟩
    | data bytes =>
      unfold stream
      split_ifs
      · exact ⟨hs, h⟩
      · exact ⟨hs, h.clean⟩
      · refine act_safe hs h kept_staged fun d s r s' hs h _ hexec => ?_
        have hresult : (if d.fault then (false, s) else (true, writeChunk s a bytes)) = (r, s') :=
          Option.some.inj hexec
        split_ifs at hresult <;> cases hresult
        · exact ⟨hs, h.clean⟩
        · exact ih (hs.writeChunk bytes) (staged_writeChunk h bytes)

theorem fill_safe (r : Request) (hs : Invariant sha256 s) (h : Staged a part [] s) :
    (fill r).Safe (service sha256 a) s
      (Ends sha256 (fun written s => Staged a part written s) (Clean a)) := by
  refine bind_safe (stream_safe r.maxBytes r.source hs h) (fun written s hs h => ?_)
    fun _ s hs h => ⟨hs, h⟩
  split_ifs
  · exact ⟨hs, h.clean⟩
  · exact quiet_bind (sync_uses _) hs h kept_staged (fun s h => h.clean) fun _ s hs h => ⟨hs, h⟩

theorem discard_safe {e : Refusal} {Q : β → Shared α → Prop} (part : Uuid)
    (hs : Invariant sha256 s) (h : Clean a s) :
    (perform (.unlinkPart part) >>= fun _ => (.raise e : Service β)).Safe (service sha256 a) s
      (Ends sha256 Q (Clean a)) :=
  unlinkPart_safe hs h kept_clean staging_clean fun _ _ hs h => ⟨hs, h⟩

theorem streamToPart_safe (r : Request) (hs : Invariant sha256 s) (h : Staged a part [] s) :
    (streamToPart r part).Safe (service sha256 a) s
      (Ends sha256 (fun written s => Staged a part written s) (Clean a)) :=
  attempt_safe (fill_safe r hs h) (fun _ _ hs h => ⟨hs, h⟩) fun _ _ hs h => discard_safe part hs h

/-! ## Promotion -/

theorem settle_safe (part : Uuid) (hs : Invariant sha256 s) (h : Promoted a id written s) :
    (settle part).Safe (service sha256 a) s
      (Ends sha256 (fun _ s => Promoted a id written s) (Promoted a id written)) := by
  refine quiet_bind (sync_uses _) hs h kept_promoted (fun _ h => h) fun _ s hs h => ?_
  refine unlinkPart_safe hs h kept_promoted staging_promoted fun r s hs h => ?_
  split_ifs
  · exact quiet_safe (sync_uses _) hs h kept_promoted |>.mono fun r s h => by cases r <;> exact h
  · exact ⟨hs, h⟩

/-- The bytes become permanent as they are staged. -/
theorem promoteFile_promoted (h : Named a part id written s) (bytes : Bytes) (hbytes : bytes = written) :
    Promoted a id written (promoteFile s a id bytes) :=
  ⟨h.staged.clean.session, _, Function.update_self .., rfl, hbytes⟩

theorem promote_safe (hs : Invariant sha256 s) (h : Named a part id written s) :
    (promote part id).Safe (service sha256 a) s
      (Ends sha256 (fun _ s => Promoted a id written s) (Clean a)) := by
  refine quiet_bind (sync_uses _) hs h kept_named (fun s h => h.staged.clean) fun _ s hs h => ?_
  refine act_safe hs h kept_named fun d s r s' hs h _ hexec => ?_
  have hresult : link s a part id d.fault = (r, s') := Option.some.inj hexec
  unfold link at hresult
  split at hresult
  · cases hresult
    exact ⟨hs, h.staged.clean⟩
  · next file hfile =>
    split_ifs at hresult <;> cases hresult
    · exact ⟨hs, h.staged.clean⟩
    · exact ⟨hs, h.staged.clean⟩
    · have hpromoted := promoteFile_promoted h file.bytes (h.staged.bytes file hfile)
      have hinv := hs.promoteFile h.reserved h.staged.clean.session.pending file.bytes
      refine attempt_safe (settle_safe part hinv hpromoted) (fun _ s hs h => ⟨hs, h⟩)
        fun e s hs h => ?_
      exact giveUp_safe hs h fun _ s hs h => ⟨hs, h⟩

theorem promotion_safe (r : Request) (hs : Invariant sha256 s) (h : Staged a part written s) :
    (promotion r part).Safe (service sha256 a) s
      (Ends sha256 (fun x s => Promoted a x.1 written s) (Clean a)) := by
  refine quiet_bind (analyze_uses r) hs h kept_staged (fun s h => h.clean) fun validation s hs h => ?_
  refine act_safe hs h kept_staged fun d s id s' hs h _ hexec => ?_
  simp only [exec] at hexec
  split_ifs at hexec with hfresh
  cases hexec
  have hnamed : Named a part d.uuid written (newId s a d.uuid) :=
    ⟨⟨⟨h.clean.session, h.clean.inflight⟩, h.uploads, h.bytes⟩, Function.update_self ..⟩
  exact bind_safe (promote_safe (hs.newId hfresh) hnamed) (fun _ s hs h => ⟨hs, h⟩)
    fun _ s hs h => ⟨hs, h⟩

/-! ## The row -/

/-- The insertion transaction, before it writes: its locks, and the bytes in flight. -/
structure Inserting (a : α) (id : MediaId) (written : Bytes) (s : Shared α) : Prop where
  pending : s.store.pending a = []
  bears : Bears a id written s

omit [DecidableEq α] in
theorem kept_inserting : Kept a (Inserting a id written) :=
  fun s s' h hspares => ⟨hspares.session.pending.trans h.pending, kept_bears s s' h.bears hspares⟩

omit [DecidableEq α] in
theorem locking_inserting : Locking a (Inserting a id written) := fun _ _ h => ⟨h.pending, h.bears⟩

/-- The parent that the new row derives from is locked. -/
def Inherits (a : α) (r : Request) (prohibited : Bool) (s : Shared α) : Prop :=
  ∀ parent, r.derivedFrom = some parent → ∃ row, Holds a parent row s ∧ row.retention = .present ∧
    (row.airingProhibited = true → prohibited = true)

omit [DecidableEq α] in
theorem kept_inherits : Kept a (Inherits a r prohibited) := by
  intro s s' h hspares parent hparent
  obtain ⟨row, hrow, hrest⟩ := h parent hparent
  exact ⟨row, kept_holds s s' hrow hspares, hrest⟩

/-- A row that is locked, and not purged. -/
theorem lockMedia_safe {media : MediaId} {requireValid : Bool} (hs : Invariant sha256 s) (hP : P s)
    (hkept : Kept a P) (hlocking : Locking a P) :
    (lockMedia media requireValid).Safe (service sha256 a) s
      (Ends sha256 (fun row s => P s ∧ Holds a media row s ∧ row.retention = .present) P) := by
  refine bind_safe (lockRow_safe hs hP hkept hlocking) (fun row s hs h => ?_) fun _ s hs h => ⟨hs, h⟩
  by_cases hpurged : row.retention = .purged
  · rw [if_pos hpurged]
    exact ⟨hs, h.1⟩
  · rw [if_neg hpurged]
    have hpresent : row.retention = .present := by
      cases hcase : row.retention with
      | present => rfl
      | purged => exact absurd hcase hpurged
    split_ifs
    · exact ⟨hs, h.1⟩
    · exact ⟨hs, h.1, h.2, hpresent⟩

theorem inheritProhibition_safe (r : Request) (hs : Invariant sha256 s)
    (h : Inserting a id written s) :
    (inheritProhibition r).Safe (service sha256 a) s
      (Ends sha256 (fun prohibited s => Inserting a id written s ∧ Inherits a r prohibited s)
        (Inserting a id written)) := by
  unfold inheritProhibition
  split
  · next hnone =>
    refine ⟨hs, h, fun parent hparent => ?_⟩
    cases hnone.symm.trans hparent
  · next parent hparent =>
    refine attempt_safe (lockMedia_safe hs h kept_inserting locking_inserting)
      (fun row s hs h => ?_) fun e s hs h => ⟨hs, h⟩
    refine ⟨hs, h.1, fun parent' hparent' => ?_⟩
    cases hparent.symm.trans hparent'
    exact ⟨row, h.2.1, h.2.2, fun hp => by simp [hp]⟩

omit [DecidableEq α] in
/-- The row describes the bytes in flight. -/
theorem inserts_newRow {validation : Validation}
    (hs : Invariant sha256 s) (h : Inserting a id written s) (hinherits : Inherits a r prohibited s) :
    Inserts sha256 s a id (newRow sha256 r id validation written prohibited) := by
  obtain ⟨p, hp, rfl, rfl⟩ := h.bears
  refine ⟨(hs.inflight a p hp).new, rfl, rfl, ⟨p, hp, rfl, rfl, rfl⟩, fun parent hparent => ?_⟩
  obtain ⟨row, hrow, hpresent, hprohibited⟩ := hinherits parent hparent
  exact ⟨hrow.owns, row, hrow.row, hpresent, hprohibited⟩

theorem insertion_safe (r : Request) (validation : Validation) (hs : Invariant sha256 s)
    (h : Inserting a id written s) :
    (insertion sha256 r id validation written).Safe (service sha256 a) s
      (Ends sha256 (fun _ s => Bears a id written s) (Bears a id written)) := by
  refine bind_safe (inheritProhibition_safe r hs h) (fun prohibited s hs h => ?_)
    fun _ s hs h => ⟨hs, h.bears⟩
  refine save_safe hs h (kept_inserting.and kept_inherits) (fun s h => h.1.bears)
    (fun s hs h => inserts_newRow hs h.1 h.2) (fun s h => ?_) fun s h => h.1.bears
  rw [h.1.pending]
  exact .inr ⟨_, rfl⟩

/-- The transaction leaves no bytes without a row, unless it says so. -/
theorem insert_safe (r : Request) (validation : Validation) (hs : Invariant sha256 s)
    (h : Promoted a id written s) :
    (atomic (insertion sha256 r id validation written)).Safe (service sha256 a) s
      (Ends sha256 (fun _ s => Clean a s) (Promoted a id written)) := by
  refine atomic_safe (insertion_safe r validation hs ⟨h.session.pending, h.bears⟩)
    (fun _ => kept_bears) kept_bears (fun s h => ⟨Sessions.rollback_clean s.store a, h⟩)
    (fun _ s _ _ => commit_clean s a) (fun _ s h => ⟨Sessions.rollback_clean s.store a, h⟩)
    fun d _ s h htime hlost => ?_
  -- A lost response would leave the committed row to the clean-up.
  obtain ⟨p, hp, -⟩ := h
  exact absurd hlost (htime p hp).1

theorem finish_safe (r : Request) (validation : Validation) (hs : Invariant sha256 s)
    (h : Promoted a id written s) :
    (finish sha256 r part written id validation).Safe (service sha256 a) s
      (Ends sha256 (fun _ s => Clean a s) (Clean a)) := by
  refine attempt_safe (insert_safe r validation hs h) (fun _ s hs h => ⟨hs, h⟩) fun e s hs h => ?_
  refine unlinkPart_safe hs h kept_promoted staging_promoted fun _ s hs h => ?_
  exact giveUp_safe hs h fun _ s hs h => ⟨hs, h⟩

theorem ingestPart_safe (r : Request) (hs : Invariant sha256 s) (h : Staged a part [] s) :
    (ingestPart sha256 r part).Safe (service sha256 a) s
      (Ends sha256 (fun _ s => Clean a s) (Clean a)) := by
  refine bind_safe (streamToPart_safe r hs h) (fun written s hs h => ?_) fun _ s hs h => ⟨hs, h⟩
  exact attempt_safe (promotion_safe r hs h) (fun x s hs h => finish_safe r x.2 hs h)
    fun e s hs h => discard_safe part hs h

theorem ingest_safe (r : Request) (hs : Invariant sha256 s) (h : Clean a s) :
    (ingest sha256 r).Safe (service sha256 a) s
      (Ends sha256 (fun _ s => Clean a s) (Clean a)) := by
  refine quiet_bind (checkRequest_uses r) hs h kept_clean (fun _ h => h) fun _ s hs h => ?_
  refine quiet_bind (sync_uses _) hs h kept_clean (fun _ h => h) fun _ s hs h => ?_
  refine act_safe hs h kept_clean fun d s r s' hs h _ hexec => ?_
  simp only [exec] at hexec
  split_ifs at hexec with hfault hfresh <;> cases hexec
  · exact ⟨hs, h⟩
  · refine ingestPart_safe _ (hs.openPart hfresh) ⟨⟨h.session, h.inflight⟩, Function.update_self .., ?_⟩
    intro f hf
    obtain rfl := Option.some.inj ((Dict.get?_insert_self ..).symm.trans hf)
    rfl

end IsadoraAir.ProductionMedia
