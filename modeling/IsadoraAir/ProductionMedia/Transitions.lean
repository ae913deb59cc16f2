import IsadoraAir.ProductionMedia.Commits

/-!
# What each transition keeps

The invariant after a staging file, a draw, a promotion, a removal, a write, a
commit, a rollback and a killed process.
-/

namespace IsadoraAir.ProductionMedia

variable {db : Db} {w : Write}

variable {α : Type} {sha256 : Bytes → String} {s s' : Shared α} {a b : α} {id : MediaId}
  {key : String}

/-- What is justified stays so where no lock is lost. -/
theorem Justified.mono (h : Justified sha256 s b w) (hdb : s'.db = s.db)
    (howner : ∀ id, Owns s b id → Owns s' b id) (hinflight : s'.inflight b = s.inflight b) :
    Justified sha256 s' b w := by
  cases w with
  | insert id row =>
    refine ⟨hdb ▸ h.new, h.key, h.present, hinflight ▸ h.bytes, fun parent hparent => ?_⟩
    obtain ⟨hown, hderivable⟩ := h.parent parent hparent
    exact ⟨howner parent hown, hdb ▸ hderivable⟩
  | verdict id v => exact howner id h
  | purge id => exact ⟨howner id h.1, hdb ▸ h.2⟩
  | bind slot r => exact ⟨howner r.media h.1, hdb ▸ h.2⟩
  | unbind slot => trivial

namespace Invariant

/-- Only the staging files, the clock and the graces change. -/
theorem of_eq (hs : Invariant sha256 s) (hgrows : Grows s s') (hstore : s'.store = s.store)
    (hfiles : s'.files = s.files) (hreserved : s'.reserved = s.reserved)
    (hinflight : s'.inflight = s.inflight) (hstored : s'.stored = s.stored)
    (hremoved : s'.removed = s.removed)
    (huploads : ∀ a part, s'.uploads a = some part → storageKeyFor part ∈ s'.drawn)
    (huploadsOnce : ∀ a b part, s'.uploads a = some part → s'.uploads b = some part → a = b) :
    Invariant sha256 s' := by
  obtain ⟨store, files, parts, uploads, clock, reserved, inflight, drawn, stored, removed,
    graces⟩ := s'
  dsimp only at hstore hfiles hreserved hinflight hstored hremoved
  subst hstore hfiles hreserved hinflight hstored hremoved
  refine ⟨hs.sound, hs.backed, fun a w hw => ?_, hs.shape, fun a p hp => ?_, hs.inflightOnce,
    fun a id hid => ?_, hs.reservedOnce, huploads, huploadsOnce, fun key h => hgrows.drawn (hs.drawn key h),
    fun id row h => hgrows.drawn (hs.rows id row h), hs.stored, hs.files, fun key h => ?_⟩
  · exact (hs.justified a w hw).mono rfl (fun _ h => h) rfl
  · have hflying := hs.inflight a p hp
    exact ⟨hgrows.drawn hflying.drawn, hflying.new, hflying.reserved,
      fun hlate => hflying.bytes fun h => hlate (h.mono hgrows), hflying.age⟩
  · have hunused := hs.reserved a id hid
    exact ⟨hgrows.drawn hunused.drawn, hunused.row, hunused.file, hunused.stored⟩
  · have hunowned := hs.removed key h
    exact ⟨hunowned.abandoned.mono hgrows (fun _ _ h => .inl h) fun _ _ h => .inl h,
      hunowned.purged⟩

/-- The staging files may be others. -/
theorem of_parts (hs : Invariant sha256 s) (parts : Dict Uuid File) :
    Invariant sha256 { s with parts := parts } :=
  hs.of_eq ⟨le_rfl, fun _ h => h, fun _ h => h⟩ rfl rfl rfl rfl rfl rfl hs.uploads hs.uploadsOnce

theorem beginSweep (hs : Invariant sha256 s) (grace : ℤ) :
    Invariant sha256 { s with graces := s.graces ++ [grace] } :=
  hs.of_eq ⟨le_rfl, fun _ h => List.mem_append_left _ h, fun _ h => h⟩ rfl rfl rfl rfl rfl rfl
    hs.uploads hs.uploadsOnce

theorem elapse (hs : Invariant sha256 s) (microseconds : ℕ) :
    Invariant sha256 { s with clock := s.clock + microseconds } := by
  have hclock : s.clock ≤ s.clock + (microseconds : ℤ) := by omega
  exact hs.of_eq ⟨hclock, fun _ h => h, fun _ h => h⟩ rfl rfl rfl rfl rfl rfl hs.uploads
    hs.uploadsOnce

theorem writeChunk (hs : Invariant sha256 s) (bytes : Bytes) :
    Invariant sha256 (writeChunk s a bytes) := by
  unfold ProductionMedia.writeChunk
  split
  · exact hs.of_parts _
  · exact hs

/-- The locks and what is still to be committed change, in a way that is justified. -/
theorem of_store (hs : Invariant sha256 s) {store : Sessions Db Write MediaId α}
    (hdb : store.db = s.store.db)
    (hjustified : ∀ a, ∀ w ∈ store.pending a, Justified sha256 { s with store := store } a w)
    (hshape : ∀ a, Shape (store.pending a)) : Invariant sha256 { s with store := store } := by
  obtain ⟨db, pending, locks⟩ := store
  dsimp only at hdb
  subst hdb
  exact ⟨hs.sound, hs.backed, hjustified, hshape,
    fun a p hp => ⟨(hs.inflight a p hp).drawn, (hs.inflight a p hp).new,
      (hs.inflight a p hp).reserved, (hs.inflight a p hp).bytes, (hs.inflight a p hp).age⟩,
    hs.inflightOnce,
    fun a id h => ⟨(hs.reserved a id h).drawn, (hs.reserved a id h).row, (hs.reserved a id h).file,
      (hs.reserved a id h).stored⟩,
    hs.reservedOnce, hs.uploads, hs.uploadsOnce, hs.drawn, hs.rows, hs.stored, hs.files,
    fun key h => ⟨⟨(hs.removed key h).abandoned.drawn, (hs.removed key h).abandoned.reserved,
      (hs.removed key h).abandoned.inflight⟩, (hs.removed key h).purged⟩⟩

variable [DecidableEq α]

theorem openPart (hs : Invariant sha256 s) {part : Uuid} (hfresh : storageKeyFor part ∉ s.drawn) :
    Invariant sha256 (openPart s a part) := by
  have hgrows : Grows s (ProductionMedia.openPart s a part) :=
    ⟨le_rfl, fun _ h => h, fun _ h => List.mem_append_left _ h⟩
  refine hs.of_eq hgrows rfl rfl rfl rfl rfl rfl (fun b part' h => ?_) fun b c part' hb hc => ?_
  · rcases update_eq_some h with ⟨-, heq⟩ | ⟨-, hold⟩
    · cases heq
      exact List.mem_append_right _ (List.mem_singleton_self _)
    · exact hgrows.drawn (hs.uploads b part' hold)
  · rcases update_eq_some hb with ⟨hba, heq⟩ | ⟨-, hbold⟩
    · cases heq
      rcases update_eq_some hc with ⟨hca, -⟩ | ⟨-, hcold⟩
      · exact hba.trans hca.symm
      · exact absurd (hs.uploads c part hcold) hfresh
    · rcases update_eq_some hc with ⟨-, heq⟩ | ⟨-, hcold⟩
      · cases heq
        exact absurd (hs.uploads b part hbold) hfresh
      · exact hs.uploadsOnce b c part' hbold hcold

theorem lock (hs : Invariant sha256 s) {id : MediaId} (havailable : s.store.locks.available a id) :
    Invariant sha256 { s with store := s.store.lock a fun other => other = id } := by
  refine hs.of_store rfl (fun b w hw => ?_) hs.shape
  refine (hs.justified b w hw).mono rfl (fun id' howner => ?_) rfl
  by_cases hb : b = a
  · subst hb
    exact RowLocks.owner_lock_of_owner howner
  · refine RowLocks.owner_lock_of_ne (fun row hrow => ?_) hb howner
    rw [of_decide_eq_true hrow]
    exact havailable

theorem write (hs : Invariant sha256 s) (hw : Justified sha256 s a w)
    (hshape : Shape (s.store.pending a ++ [w])) :
    Invariant sha256 { s with store := s.store.write a w } := by
  refine hs.of_store rfl (fun b w' hw' => ?_) fun b => ?_
  · refine Justified.mono (s := s) ?_ rfl (fun _ h => h) rfl
    by_cases hb : b = a
    · subst hb
      rw [Sessions.write_pending_self, List.mem_append, List.mem_singleton] at hw'
      rcases hw' with hw' | rfl
      · exact hs.justified b w' hw'
      · exact hw
    · rw [Sessions.write_pending_of_ne w hb] at hw'
      exact hs.justified b w' hw'
  · by_cases hb : b = a
    · subst hb
      rw [Sessions.write_pending_self]
      exact hshape
    · rw [Sessions.write_pending_of_ne w hb]
      exact hs.shape b

theorem rollback (hs : Invariant sha256 s) (a : α) : Invariant sha256 (rollback s a) := by
  refine hs.of_store rfl (fun b w hw => ?_) fun b => ?_
  · by_cases hb : b = a
    · subst hb
      rw [(Sessions.rollback_clean s.store b).pending] at hw
      cases hw
    · rw [Sessions.rollback_pending_of_ne hb] at hw
      exact (hs.justified b w hw).mono rfl
        (fun id howner => (Sessions.rollback_spared hb).owner id howner) rfl
  · by_cases hb : b = a
    · subst hb
      rw [(Sessions.rollback_clean s.store b).pending]
      exact .inl fun _ h => by cases h
    · rw [Sessions.rollback_pending_of_ne hb]
      exact hs.shape b

/-! ## Names and files -/

omit [DecidableEq α] in
/-- A name that has not been drawn is the name of nothing. -/
theorem unused (hs : Invariant sha256 s) {id : MediaId} (hfresh : storageKeyFor id ∉ s.drawn) :
    s.db.media.get? id = none ∧ s.files.get? (storageKeyFor id) = none ∧
      storageKeyFor id ∉ s.stored.map Prod.fst := by
  refine ⟨?_, ?_, fun h => hfresh (hs.drawn _ h)⟩
  · by_contra hne
    obtain ⟨row, hrow⟩ := Option.ne_none_iff_exists'.mp hne
    exact hfresh (hs.sound.keys id row hrow ▸ hs.rows id row hrow)
  · by_contra hne
    obtain ⟨f, hf⟩ := Option.ne_none_iff_exists'.mp hne
    exact hfresh (hs.drawn _ (List.mem_map_of_mem (f := Prod.fst) (hs.files _ f hf)))

theorem newId (hs : Invariant sha256 s) {id : MediaId} (hfresh : storageKeyFor id ∉ s.drawn) :
    Invariant sha256 (newId s a id) := by
  have hgrows : Grows s (ProductionMedia.newId s a id) :=
    ⟨le_rfl, fun _ h => h, fun _ h => List.mem_append_left _ h⟩
  obtain ⟨hrow, hfile, hstored⟩ := hs.unused hfresh
  refine ⟨hs.sound, hs.backed, fun b w hw => ?_, hs.shape, fun b p hp => ?_, hs.inflightOnce,
    fun b id' h => ?_, fun b c id' hb hc => ?_, fun b part h => hgrows.drawn (hs.uploads b part h),
    hs.uploadsOnce, fun key h => hgrows.drawn (hs.drawn key h),
    fun id row h => hgrows.drawn (hs.rows id row h), hs.stored, hs.files, fun key h => ?_⟩
  · exact (hs.justified b w hw).mono rfl (fun _ h => h) rfl
  · have hflying := hs.inflight b p hp
    refine ⟨hgrows.drawn hflying.drawn, hflying.new, fun c hc => ?_, hflying.bytes, hflying.age⟩
    rcases update_eq_some hc with ⟨-, heq⟩ | ⟨-, hold⟩
    · cases heq
      exact hfresh hflying.drawn
    · exact hflying.reserved c hold
  · rcases update_eq_some h with ⟨-, heq⟩ | ⟨-, hold⟩
    · cases heq
      exact ⟨List.mem_append_right _ (List.mem_singleton_self _), hrow, hfile, hstored⟩
    · have hunused := hs.reserved b id' hold
      exact ⟨hgrows.drawn hunused.drawn, hunused.row, hunused.file, hunused.stored⟩
  · rcases update_eq_some hb with ⟨hba, heq⟩ | ⟨-, hbold⟩
    · cases heq
      rcases update_eq_some hc with ⟨hca, -⟩ | ⟨-, hcold⟩
      · exact hba.trans hca.symm
      · exact absurd (hs.reserved c id hcold).drawn hfresh
    · rcases update_eq_some hc with ⟨-, heq⟩ | ⟨-, hcold⟩
      · cases heq
        exact absurd (hs.reserved b id hbold).drawn hfresh
      · exact hs.reservedOnce b c id' hbold hcold
  · have hunowned := hs.removed key h
    refine ⟨hunowned.abandoned.mono hgrows (fun b id' h => ?_) fun _ _ h => .inl h, hunowned.purged⟩
    rcases update_eq_some h with ⟨-, heq⟩ | ⟨-, hold⟩
    · cases heq
      exact .inr fun heq => hfresh (heq ▸ hunowned.abandoned.drawn)
    · exact .inl hold

/-- An agent whose session is clean may take bytes in, or give them up. -/
theorem update_justified (hs : Invariant sha256 s) {p : Option Promotion}
    (hpending : s.store.pending a = []) (hw : w ∈ s.store.pending b) (hdb : s'.db = s.db)
    (howner : ∀ id, Owns s b id → Owns s' b id)
    (hinflight : s'.inflight = Function.update s.inflight a p) : Justified sha256 s' b w := by
  have hb : b ≠ a := by
    rintro rfl
    rw [hpending] at hw
    cases hw
  refine (hs.justified b w hw).mono hdb howner ?_
  rw [hinflight, Function.update_of_ne hb]

theorem promoteFile (hs : Invariant sha256 s) {id : MediaId} (hid : s.reserved a = some id)
    (hpending : s.store.pending a = []) (bytes : Bytes) :
    Invariant sha256 (promoteFile s a id bytes) := by
  have hunused := hs.reserved a id hid
  have hreserved {b : α} {id' : MediaId} (h : Function.update s.reserved a none b = some id') :
      s.reserved b = some id' ∧ id' ≠ id := by
    obtain ⟨hb, hold⟩ := update_none_eq_some h
    refine ⟨hold, ?_⟩
    rintro rfl
    exact hb (hs.reservedOnce b a id' hold hid)
  have hinflight {b : α} {p : Promotion}
      (h : Function.update s.inflight a (some ⟨id, bytes, s.clock⟩) b = some p) :
      b = a ∧ p = ⟨id, bytes, s.clock⟩ ∨ b ≠ a ∧ s.inflight b = some p ∧ p.id ≠ id := by
    rcases update_eq_some h with ⟨hb, heq⟩ | ⟨hb, hold⟩
    · exact .inl ⟨hb, (Option.some.inj heq).symm⟩
    · refine .inr ⟨hb, hold, ?_⟩
      rintro rfl
      exact (hs.inflight b p hold).reserved a hid
  have hkey {id' : MediaId} (hne : id' ≠ id) : storageKeyFor id' ≠ storageKeyFor id :=
    fun h => hne (storageKeyFor_injective h)
  have hfile {key : String} (hne : key ≠ storageKeyFor id) :
      (s.files.insert (storageKeyFor id) ⟨bytes, s.clock⟩).get? key = s.files.get? key := by
    rw [Dict.get?_insert, if_neg hne]
  refine ⟨hs.sound, fun id' row hrow hpresent => ?_,
    fun b w hw => hs.update_justified hpending hw rfl (fun _ h => h) rfl, hs.shape,
    fun b p hp => ?_, fun b c p q hp hq heq => ?_, fun b id' h => ?_, fun b c id' hb hc => ?_,
    hs.uploads, hs.uploadsOnce, fun key h => ?_, hs.rows, ?_, fun key f h => ?_, fun key h => ?_⟩
  · obtain ⟨f, hf, hdescribes⟩ := hs.backed id' row hrow hpresent
    refine ⟨f, ?_, hdescribes⟩
    have hne : id' ≠ id := by
      rintro rfl
      cases hunused.row.symm.trans hrow
    change (s.files.insert _ _).get? _ = _
    rw [hfile]
    · exact hf
    · rw [hs.sound.keys id' row hrow]
      exact hkey hne
  · rcases hinflight hp with ⟨-, rfl⟩ | ⟨-, hold, hne⟩
    · refine ⟨hunused.drawn, hunused.row, fun c hc => (hreserved hc).2 rfl,
        fun _ => ⟨_, Dict.get?_insert_self .., rfl⟩, fun f hf => ?_⟩
      obtain rfl := Option.some.inj ((Dict.get?_insert_self ..).symm.trans hf)
      exact le_rfl
    · have hflying := hs.inflight b p hold
      refine ⟨hflying.drawn, hflying.new, fun c hc => hflying.reserved c (hreserved hc).1,
        fun hlate => ?_, fun f hf => ?_⟩
      · change ∃ f, (s.files.insert _ _).get? _ = _ ∧ _
        rw [hfile (hkey hne)]
        exact hflying.bytes hlate
      · change (s.files.insert _ _).get? _ = _ at hf
        rw [hfile (hkey hne)] at hf
        exact hflying.age f hf
  · rcases hinflight hp with ⟨hba, rfl⟩ | ⟨-, hbold, hbne⟩
    · rcases hinflight hq with ⟨hca, -⟩ | ⟨-, -, hcne⟩
      · exact hba.trans hca.symm
      · exact absurd heq.symm hcne
    · rcases hinflight hq with ⟨-, rfl⟩ | ⟨-, hcold, -⟩
      · exact absurd heq hbne
      · exact hs.inflightOnce b c p q hbold hcold heq
  · obtain ⟨hold, hne⟩ := hreserved h
    have hunused' := hs.reserved b id' hold
    refine ⟨hunused'.drawn, hunused'.row, (hfile (hkey hne)).trans hunused'.file, ?_⟩
    change _ ∉ (s.stored ++ [(storageKeyFor id, bytes)]).map Prod.fst
    rw [List.map_append, List.mem_append, not_or]
    exact ⟨hunused'.stored, by simpa using hkey hne⟩
  · exact hs.reservedOnce b c id' (hreserved hb).1 (hreserved hc).1
  · change key ∈ (s.stored ++ [(storageKeyFor id, bytes)]).map Prod.fst at h
    rw [List.map_append, List.mem_append] at h
    rcases h with h | h
    · exact hs.drawn key h
    · obtain rfl : key = storageKeyFor id := by simpa using h
      exact hunused.drawn
  · change ((s.stored ++ [(storageKeyFor id, bytes)]).map Prod.fst).Nodup
    rw [List.map_append]
    exact hs.stored.append (List.nodup_singleton _) (by simpa using hunused.stored)
  · change (s.files.insert _ _).get? _ = _ at h
    rw [Dict.get?_insert] at h
    split_ifs at h with heq
    · cases h
      rw [heq]
      exact List.mem_append_right _ (List.mem_singleton_self _)
    · exact List.mem_append_left _ (hs.files key f h)
  · have hunowned := hs.removed key h
    refine ⟨hunowned.abandoned.mono ⟨le_rfl, fun _ h => h, fun _ h => h⟩
      (fun b id' h => .inl (hreserved h).1) (fun b p hp => ?_), hunowned.purged⟩
    rcases hinflight hp with ⟨-, rfl⟩ | ⟨-, hold, -⟩
    · exact .inr (hunowned.abandoned.reserved a id hid)
    · exact .inl hold

/-- An agent gives up what it has promoted. -/
theorem giveUp (hs : Invariant sha256 s) (hpending : s.store.pending a = []) :
    Invariant sha256 { s with inflight := Function.update s.inflight a none } := by
  have hinflight {b : α} {p : Promotion} (h : Function.update s.inflight a none b = some p) :
      s.inflight b = some p := (update_none_eq_some h).2
  refine ⟨hs.sound, hs.backed,
    fun b w hw => hs.update_justified hpending hw rfl (fun _ h => h) rfl, hs.shape,
    fun b p hp => ?_, fun b c p q hp hq => hs.inflightOnce b c p q (hinflight hp) (hinflight hq),
    fun b id h => ?_, hs.reservedOnce, hs.uploads, hs.uploadsOnce, hs.drawn, hs.rows, hs.stored,
    hs.files, fun key h => ?_⟩
  · have hflying := hs.inflight b p (hinflight hp)
    exact ⟨hflying.drawn, hflying.new, hflying.reserved, hflying.bytes, hflying.age⟩
  · have hunused := hs.reserved b id h
    exact ⟨hunused.drawn, hunused.row, hunused.file, hunused.stored⟩
  · have hunowned := hs.removed key h
    exact ⟨hunowned.abandoned.mono ⟨le_rfl, fun _ h => h, fun _ h => h⟩ (fun _ _ h => .inl h)
      fun _ _ h => .inl (hinflight h), hunowned.purged⟩

theorem kill (hs : Invariant sha256 s) (a : α) : Invariant sha256 (kill a s) :=
  (hs.rollback a).giveUp (Sessions.rollback_clean s.store a).pending

omit [DecidableEq α] in
/-- A permanent file is removed that no row owns. -/
theorem eraseFile (hs : Invariant sha256 s) (h : Unowned s key) :
    Invariant sha256 { s with files := s.files.erase key, removed := s.removed ++ [key] } := by
  have hfile {key' : String} (hne : key' ≠ key) :
      (s.files.erase key).get? key' = s.files.get? key' := by
    rw [Dict.get?_erase, if_neg hne]
  have hsub {key' : String} {f : File} (hf : (s.files.erase key).get? key' = some f) :
      s.files.get? key' = some f := by
    rw [Dict.get?_erase] at hf
    split_ifs at hf
    exact hf
  refine ⟨hs.sound, fun id row hrow hpresent => ?_,
    fun b w hw => (hs.justified b w hw).mono rfl (fun _ h => h) rfl, hs.shape, fun b p hp => ?_,
    hs.inflightOnce, fun b id hid => ?_, hs.reservedOnce, hs.uploads, hs.uploadsOnce, hs.drawn,
    hs.rows, hs.stored, fun key' f hf => hs.files key' f (hsub hf), fun key' h' => ?_⟩
  · obtain ⟨f, hf, hdescribes⟩ := hs.backed id row hrow hpresent
    refine ⟨f, (hfile fun heq => ?_).trans hf, hdescribes⟩
    cases hpresent.symm.trans (h.purged id row hrow heq)
  · have hflying := hs.inflight b p hp
    refine ⟨hflying.drawn, hflying.new, hflying.reserved, fun hlate => ?_,
      fun f hf => hflying.age f (hsub hf)⟩
    obtain ⟨f, hf, hbytes⟩ := hflying.bytes hlate
    exact ⟨f, (hfile fun heq => hlate (h.abandoned.inflight b p hp heq)).trans hf, hbytes⟩
  · have hunused := hs.reserved b id hid
    refine ⟨hunused.drawn, hunused.row, ?_, hunused.stored⟩
    change (s.files.erase key).get? _ = none
    rw [Dict.get?_erase, hunused.file, ite_self]
  · rcases List.mem_append.mp h' with h' | h'
    · have hunowned := hs.removed key' h'
      exact ⟨⟨hunowned.abandoned.drawn, hunowned.abandoned.reserved, hunowned.abandoned.inflight⟩,
        hunowned.purged⟩
    · rw [List.mem_singleton.mp h']
      exact ⟨⟨h.abandoned.drawn, h.abandoned.reserved, h.abandoned.inflight⟩, h.purged⟩

theorem unlink (hs : Invariant sha256 s) (hpending : s.store.pending a = [])
    {result : Unlinked} (h : Unowned (unlink s a key result) key) :
    Invariant sha256 (unlink s a key result) := by
  have hgiven : Invariant sha256 { s with
      inflight :=
        if (s.inflight a).any fun p => p.key = key then Function.update s.inflight a none
        else s.inflight } := by
    split_ifs
    · exact hs.giveUp hpending
    · exact hs
  have hunowned : Unowned { s with
      inflight :=
        if (s.inflight a).any fun p => p.key = key then Function.update s.inflight a none
        else s.inflight } key :=
    ⟨⟨h.abandoned.drawn, h.abandoned.reserved, h.abandoned.inflight⟩, h.purged⟩
  by_cases hresult : result = .done
  · have herased := hgiven.eraseFile hunowned
    simpa only [ProductionMedia.unlink, if_pos hresult] using herased
  · simpa only [ProductionMedia.unlink, if_neg hresult] using hgiven

/-! ## Commits -/

omit [DecidableEq α] in
/-- What others have checked under their locks. -/
theorem justified_commits (hs : Invariant sha256 s) (h : Commits sha256 s a db)
    (hab : b ≠ a) (hw : Justified sha256 s b w) (hdb : s'.db = db)
    (howner : ∀ id, Owns s b id → Owns s' b id) (hinflight : s'.inflight b = s.inflight b) :
    Justified sha256 s' b w := by
  have hnot {id : MediaId} (hown : Owns s b id) : ¬Owns s a id :=
    fun h => hab (Option.some.inj (hown.symm.trans h))
  cases w with
  | insert id row =>
    obtain ⟨p, hp, hid, hdescribes⟩ := hw.bytes
    refine ⟨?_, hw.key, hw.present, ⟨p, hinflight ▸ hp, hid, hdescribes⟩, fun parent hparent => ?_⟩
    · rw [hdb]
      refine h.get?_none hw.new fun q hq hqid => hab ?_
      exact hs.inflightOnce b a p q hp hq (hid.trans hqid.symm)
    · obtain ⟨hown, hderivable⟩ := hw.parent parent hparent
      refine ⟨howner parent hown, ?_⟩
      rw [hdb]
      exact h.derivable hderivable (.inr (hnot hown))
  | verdict id v => exact howner id hw
  | purge id => exact ⟨howner id hw.1, hdb ▸ h.unreferenced hw.2 (hnot hw.1)⟩
  | bind slot r => exact ⟨howner r.media hw.1, hdb ▸ h.referable hw.2 (.inr (hnot hw.1))⟩
  | unbind slot => trivial

omit [DecidableEq α] in
/-- Rows are purged for good, and no abandoned bytes get a row. -/
theorem purged_commits (h : Commits sha256 s a db)
    (htime : ∀ p, s.inflight a = some p → ¬Late s p) (hunowned : Unowned s key) {id : MediaId}
    {row : Row} (hrow : db.media.get? id = some row) (hkey : row.storageKey = key) :
    row.retention = .purged := by
  rcases h.get?_cases hrow with hold | hnew | ⟨row₀, hchange⟩
  · exact hunowned.purged id row hold hkey
  · obtain ⟨p, hp, rfl, -⟩ := hnew.bytes
    exact absurd (hunowned.abandoned.inflight a p hp (hnew.key.symm.trans hkey)) (htime p hp)
  · have hpurged := hunowned.purged id row₀ hchange.old (hchange.same.storageKey ▸ hkey)
    exact hchange.retention.elim (fun heq => heq.trans hpurged) And.left

omit [DecidableEq α] in
theorem backed_commits (hs : Invariant sha256 s) (h : Commits sha256 s a db)
    (htime : ∀ p, s.inflight a = some p → ¬Late s p) {id : MediaId} {row : Row}
    (hrow : db.media.get? id = some row) (hpresent : row.retention = .present) :
    ∃ f, s.files.get? row.storageKey = some f ∧ Describes sha256 row f.bytes := by
  rcases h.get?_cases hrow with hold | hnew | ⟨row₀, hchange⟩
  · exact hs.backed id row hold hpresent
  · obtain ⟨p, hp, rfl, hdescribes⟩ := hnew.bytes
    obtain ⟨f, hf, hbytes⟩ := (hs.inflight a p hp).bytes (htime p hp)
    rw [hnew.key]
    exact ⟨f, hf, hbytes ▸ hdescribes⟩
  · have hold : row₀.retention = .present := by
      rcases hchange.retention with heq | ⟨hpurged, -⟩
      · exact heq.symm.trans hpresent
      · cases hpresent.symm.trans hpurged
    obtain ⟨f, hf, hsha, hsize⟩ := hs.backed id row₀ hchange.old hold
    rw [hchange.same.storageKey]
    exact ⟨f, hf, hsha.trans hchange.same.sha256.symm, hsize.trans hchange.same.byteSize.symm⟩

theorem commit (hs : Invariant sha256 s) (htime : ∀ p, s.inflight a = some p → ¬Late s p) :
    Invariant sha256 (commit s a) := by
  have hcommits := commits_view hs a
  have hinflight {b : α} {p : Promotion} (h : Function.update s.inflight a none b = some p) :
      b ≠ a ∧ s.inflight b = some p := update_none_eq_some h
  refine ⟨hcommits.sound hs.sound, fun id row => hs.backed_commits hcommits htime,
    fun b w hw => ?_, fun b => ?_, fun b p hp => ?_,
    fun b c p q hp hq => hs.inflightOnce b c p q (hinflight hp).2 (hinflight hq).2,
    fun b id h => ?_, hs.reservedOnce, hs.uploads, hs.uploadsOnce, hs.drawn, fun id row hrow => ?_,
    hs.stored, hs.files, fun key h => ?_⟩
  · by_cases hb : b = a
    · subst hb
      change w ∈ (s.store.rollback b).pending b at hw
      rw [(Sessions.rollback_clean s.store b).pending] at hw
      cases hw
    · change w ∈ (s.store.rollback a).pending b at hw
      rw [Sessions.rollback_pending_of_ne hb] at hw
      exact hs.justified_commits hcommits hb (hs.justified b w hw) rfl
        (fun id hown => (Sessions.rollback_spared hb).owner id hown)
        (Function.update_of_ne hb ..)
  · by_cases hb : b = a
    · subst hb
      change Shape ((s.store.rollback b).pending b)
      rw [(Sessions.rollback_clean s.store b).pending]
      exact .inl fun _ h => by cases h
    · change Shape ((s.store.rollback a).pending b)
      rw [Sessions.rollback_pending_of_ne hb]
      exact hs.shape b
  · obtain ⟨hb, hold⟩ := hinflight hp
    have hflying := hs.inflight b p hold
    refine ⟨hflying.drawn, ?_, hflying.reserved, hflying.bytes, hflying.age⟩
    exact hcommits.get?_none hflying.new fun q hq hid => hb (hs.inflightOnce b a p q hold hq hid.symm)
  · have hunused := hs.reserved b id h
    refine ⟨hunused.drawn, ?_, hunused.file, hunused.stored⟩
    refine hcommits.get?_none hunused.row fun q hq hid => ?_
    exact (hs.inflight a q hq).reserved b (hid ▸ h)
  · rcases hcommits.get?_cases hrow with hold | hnew | ⟨row₀, hchange⟩
    · exact hs.rows id row hold
    · obtain ⟨p, hp, rfl, -⟩ := hnew.bytes
      rw [hnew.key]
      exact (hs.inflight a p hp).drawn
    · rw [hchange.same.storageKey]
      exact hs.rows id row₀ hchange.old
  · have hunowned := hs.removed key h
    exact ⟨hunowned.abandoned.mono ⟨le_rfl, fun _ h => h, fun _ h => h⟩ (fun _ _ h => .inl h)
      fun _ _ h => .inl (hinflight h).2, fun id row => purged_commits hcommits htime hunowned⟩

end Invariant

end IsadoraAir.ProductionMedia
