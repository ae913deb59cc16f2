import IsadoraAir.ProductionMedia.Intake

/-!
# Bindings, purges, verdicts and sweeps

The requests that end or keep the life of a media are safe.
-/

/-!
## Bindings, purges and verdicts are safe

A media is bound while its row is locked, and purged while nothing refers to it;
the bytes of a purged media are nobody's.
-/

namespace IsadoraAir.ProductionMedia

open Routine (Safe)

variable {α : Type} {sha256 : Bytes → String} {s s' : Shared α} {a : α} {β : Type}
  {P : Shared α → Prop} {id : MediaId} {key : String}

/-! ### Bindings -/

/-- A transaction that has only bound and unbound. -/
structure Binding (a : α) (s : Shared α) : Prop where
  inflight : s.inflight a = none
  pending : ∀ w ∈ s.store.pending a, w.isBinding = true

theorem kept_binding : Kept a (Binding a) := by
  intro s s' h hspares
  exact ⟨hspares.inflight.trans h.inflight, hspares.session.pending ▸ h.pending⟩

theorem locking_binding : Locking a (Binding a) := fun _ _ h => ⟨h.inflight, h.pending⟩

theorem Binding.shape (h : Binding a s) {w : Write} (hw : w.isBinding = true) :
    Shape (s.store.pending a ++ [w]) := by
  refine .inl fun w' hw' => ?_
  rcases List.mem_append.mp hw' with hw' | hw'
  · exact h.pending w' hw'
  · rw [List.mem_singleton.mp hw']
    exact hw

variable [DecidableEq α]

theorem Binding.write (h : Binding a s) {w : Write} (hw : w.isBinding = true) :
    Binding a { s with store := s.store.write a w } := by
  refine ⟨h.inflight, fun w' hw' => ?_⟩
  change w' ∈ (s.store.write a w).pending a at hw'
  rw [Sessions.write_pending_self, List.mem_append] at hw'
  rcases hw' with hw' | hw'
  · exact h.pending w' hw'
  · rw [List.mem_singleton.mp hw']
    exact hw

/-- Nothing remains of a transaction of bindings. -/
theorem transaction_safe {body : Service β} {Q : β → Shared α → Prop} {E : Shared α → Prop}
    (hbody : body.Safe (service sha256 a) s (Ends sha256 Q E)) (hQ : ∀ b, Kept a (Q b))
    (hE : Kept a E) (hinflight : ∀ b s, Q b s → s.inflight a = none)
    (hfailed : ∀ s, E s → s.inflight a = none) :
    (atomic body).Safe (service sha256 a) s
      (Ends sha256 (fun _ s => Clean a s) (Clean a)) :=
  atomic_safe hbody hQ hE (fun s h => rollback_clean (hfailed s h))
    (fun _ s _ _ => commit_clean s a) (fun b s h => rollback_clean (hinflight b s h))
    fun _ _ s _ _ _ => commit_clean s a

/-- The media, as the binding rule wants it. -/
theorem lockFor_safe {media : MediaId} {airing requireValid : Bool} (hs : Invariant sha256 s)
    (hP : P s) (hkept : Kept a P) (hlocking : Locking a P) :
    (lockFor media airing requireValid).Safe (service sha256 a) s
      (Ends sha256 (fun _ s => P s ∧ ∃ row, Holds a media row s ∧ row.retention = .present ∧
        row.airingProhibited = !airing) P) := by
  cases airing
  · refine bind_safe (lockMedia_safe hs hP hkept hlocking) (fun row s hs h => ?_)
      fun _ s hs h => ⟨hs, h⟩
    split_ifs with hprohibited
    · exact ⟨hs, h.1, row, h.2.1, h.2.2, hprohibited⟩
    · exact ⟨hs, h.1⟩
  · refine bind_safe (lockMedia_safe hs hP hkept hlocking) (fun row s hs h => ?_)
      fun _ s hs h => ⟨hs, h⟩
    split_ifs with hprohibited
    · exact ⟨hs, h.1⟩
    · exact ⟨hs, h.1, row, h.2.1, h.2.2, by simpa using hprohibited⟩

theorem change_safe (c : Change) (hs : Invariant sha256 s) (h : Binding a s) :
    (change c).Safe (service sha256 a) s
      (Ends sha256 (fun _ s => Binding a s) (Binding a)) := by
  cases c with
  | bind slot media airing requireValid =>
    refine bind_safe (lockFor_safe hs h kept_binding locking_binding) (fun _ s hs h => ?_)
      fun _ s hs h => ⟨hs, h⟩
    obtain ⟨hbinding, row, hrow, hpresent, hprohibited⟩ := h
    refine save_safe hs ⟨hbinding, hrow⟩ (kept_binding.and kept_holds) (fun s h => h.1)
      (fun s _ h => ?_) (fun s h => h.1.shape rfl) fun s h => h.1.write rfl
    exact ⟨h.2.owns, row, h.2.row, hpresent, hprohibited⟩
  | unbind slot =>
    exact save_safe hs h kept_binding (fun _ h => h) (fun _ _ _ => trivial) (fun s h => h.shape rfl)
      fun s h => h.write rfl

theorem changeAll_safe (changes : List Change) (hs : Invariant sha256 s) (h : Binding a s) :
    (changeAll changes).Safe (service sha256 a) s
      (Ends sha256 (fun _ s => Binding a s) (Binding a)) := by
  induction changes generalizing s with
  | nil => exact ⟨hs, h⟩
  | cons c rest ih =>
    exact bind_safe (change_safe c hs h) (fun _ s hs h => ih hs h) fun _ s hs h => ⟨hs, h⟩

omit [DecidableEq α] in
theorem Clean.binding (h : Clean a s) : Binding a s := by
  refine ⟨h.inflight, fun w hw => ?_⟩
  rw [h.session.pending] at hw
  cases hw

theorem bindings_safe (changes : List Change) (hs : Invariant sha256 s) (h : Clean a s) :
    (bind changes).Safe (service sha256 a) s (Ends sha256 (fun _ s => Clean a s) (Clean a)) :=
  transaction_safe (changeAll_safe changes hs h.binding) (fun _ => kept_binding) kept_binding
    (fun _ _ h => h.inflight) fun _ h => h.inflight

/-! ### Verdicts -/

/-- A transaction that has written nothing, with no bytes in flight. -/
structure Unwritten (a : α) (s : Shared α) : Prop where
  inflight : s.inflight a = none
  pending : s.store.pending a = []

omit [DecidableEq α] in
theorem kept_unwritten : Kept a (Unwritten a) :=
  fun _ _ h hspares => ⟨hspares.inflight.trans h.inflight, hspares.session.pending.trans h.pending⟩

omit [DecidableEq α] in
theorem locking_unwritten : Locking a (Unwritten a) := fun _ _ h => ⟨h.inflight, h.pending⟩

omit [DecidableEq α] in
theorem Unwritten.shape (h : Unwritten a s) (w : Write) : Shape (s.store.pending a ++ [w]) := by
  rw [h.pending]
  exact .inr ⟨w, rfl⟩

omit [DecidableEq α] in
theorem Clean.unwritten (h : Clean a s) : Unwritten a s := ⟨h.inflight, h.session.pending⟩

omit [DecidableEq α] in
theorem kept_inflight : Kept a fun s => s.inflight a = none :=
  fun _ _ h hspares => hspares.inflight.trans h

theorem judge_safe (id : MediaId) (verdict : Validation) (hs : Invariant sha256 s) (h : Clean a s) :
    (judge id verdict).Safe (service sha256 a) s
      (Ends sha256 (fun _ s => Clean a s) (Clean a)) := by
  refine transaction_safe (Q := fun _ s => s.inflight a = none) (E := fun s => s.inflight a = none) ?_
    (fun _ => kept_inflight) kept_inflight (fun _ _ h => h) fun _ h => h
  refine bind_safe (lockRow_safe hs h.unwritten kept_unwritten locking_unwritten)
    (fun row s hs h => ?_) fun _ s hs h => ⟨hs, h.inflight⟩
  exact save_safe hs h (kept_unwritten.and kept_holds) (fun s h => h.1.inflight)
    (fun s _ h => h.2.owns) (fun s h => h.1.shape _) fun s h => h.1.inflight

/-! ### Purges -/

/-- The row is purged, or will be with the commit. -/
structure Purging (a : α) (id : MediaId) (key : String) (s : Shared α) : Prop where
  inflight : s.inflight a = none
  row : ∃ row, Holds a id row s ∧ row.storageKey = key ∧
    (row.retention = .purged ∧ s.store.pending a = [] ∨ s.store.pending a = [.purge id])

omit [DecidableEq α] in
theorem kept_purging : Kept a (Purging a id key) := by
  rintro s s' ⟨hinflight, row, hrow, hkey, hpurged⟩ hspares
  refine ⟨hspares.inflight.trans hinflight, row, kept_holds s s' hrow hspares, hkey, ?_⟩
  rw [hspares.session.pending]
  exact hpurged

omit [DecidableEq α] in
/-- A purge, and what has been purged before. -/
theorem purged_view (h : Purging a id key s) :
    ∃ row, (s.store.view Db.apply a).media.get? id = some row ∧ row.storageKey = key ∧
      row.retention = .purged := by
  obtain ⟨-, row, hrow, hkey, ⟨hpurged, hpending⟩ | hpending⟩ := h
  · refine ⟨row, ?_, hkey, hpurged⟩
    rw [Sessions.view_of_clean hpending]
    exact hrow.row
  · have hview : s.store.view Db.apply a = s.db.apply (.purge id) := by
      simp [Sessions.view, hpending]
    rw [hview]
    simp only [Db.apply, Db.update, hrow.row]
    split_ifs with hpresent
    · exact ⟨_, Dict.get?_insert_self .., hkey, rfl⟩
    · refine ⟨row, hrow.row, hkey, ?_⟩
      cases hcase : row.retention with
      | present => simp [hcase] at hpresent
      | purged => rfl

omit [DecidableEq α] in
/-- The bytes of a purged row are nobody's. -/
theorem unowned_of_purged (hs : Invariant sha256 s) {row : Row}
    (hrow : s.db.media.get? id = some row) (hpurged : row.retention = .purged) :
    Unowned s row.storageKey := by
  have hid {id' : MediaId} (h : storageKeyFor id' = row.storageKey) : id' = id :=
    storageKeyFor_injective (h.trans (hs.sound.keys id row hrow))
  refine ⟨⟨hs.rows id row hrow, fun c id' hreserved heq => ?_, fun c p hp heq => ?_⟩,
    fun id' row' hrow' heq => ?_⟩
  · have hunused := hs.reserved c id' hreserved
    cases hrow.symm.trans (hid heq ▸ hunused.row)
  · have hflying := hs.inflight c p hp
    cases hrow.symm.trans (hid heq ▸ hflying.new)
  · obtain rfl := hid ((hs.sound.keys id' row' hrow').symm.trans heq)
    obtain rfl := Option.some.inj (hrow.symm.trans hrow')
    exact hpurged

theorem markPurged_safe (id : MediaId) (hs : Invariant sha256 s) (h : Unwritten a s) :
    (markPurged id).Safe (service sha256 a) s
      (Ends sha256 (fun key s => Purging a id key s) fun s => s.inflight a = none) := by
  refine bind_safe (lockRow_safe hs h kept_unwritten locking_unwritten) (fun row s hs h => ?_)
    fun _ s hs h => ⟨hs, h.inflight⟩
  by_cases hpurged : row.retention = .purged
  · rw [if_pos hpurged]
    exact ⟨hs, h.1.inflight, row, h.2, rfl, .inl ⟨hpurged, h.1.pending⟩⟩
  · rw [if_neg hpurged]
    refine act_safe hs h (kept_unwritten.and kept_holds) fun d s count s' hs h _ hexec => ?_
    have hview : s.store.view Db.apply a = s.db := Sessions.view_of_clean h.1.pending
    cases hexec
    split
    · exact ⟨hs, h.1.inflight⟩
    · next hcount =>
      have hunreferenced : Unreferenced s.db id := by
        split_ifs at hcount
        exact unreferenced_of_count (hview ▸ Option.some.inj hcount)
      have hkept : Kept a fun s =>
          (Unwritten a s ∧ Holds a id row s) ∧ Unreferenced s.db id :=
        fun s s' h hspares => ⟨(kept_unwritten.and kept_holds) s s' h.1 hspares,
          hspares.unreferenced id h.1.2.owns h.2⟩
      refine bind_safe (Q := fun _ s => Purging a id row.storageKey s) ?_
        (fun _ s hs h => ⟨hs, h⟩) fun _ s hs h => ⟨hs, h⟩
      refine save_safe hs ⟨h, hunreferenced⟩ hkept (fun s h => h.1.1.inflight)
        (fun s _ h => ⟨h.1.2.owns, h.2⟩) (fun s h => h.1.1.shape _) fun s h => ?_
      refine ⟨h.1.1.inflight, row, ⟨h.1.2.owns, h.1.2.row⟩, rfl, .inr ?_⟩
      change (s.store.write a _).pending a = _
      rw [Sessions.write_pending_self, h.1.1.pending]
      rfl
    · exact ⟨hs, h.1.inflight⟩

/-- Bytes that are nobody's are removed. -/
theorem removal_safe {f : Unlinked → Service β} {R : Except Refusal β → Shared α → Prop}
    (hs : Invariant sha256 s) (h : Clean a s) (hP : Unowned s key ∧ P s)
    (hkept : Kept a P) (hremoval : ∀ s result, P s → P (unlink s a key result))
    (hf : ∀ r s, Invariant sha256 s → Clean a s → P s → (f r).Safe (service sha256 a) s R) :
    (perform (.unlink key) >>= f).Safe (service sha256 a) s R := by
  have hunowned : Kept a fun s => Unowned s key := fun _ _ h hspares => hspares.unowned key h
  refine act_safe hs ⟨h, hP⟩ (kept_clean.and (hunowned.and hkept)) fun d s r s' hs h _ hexec => ?_
  obtain ⟨hclean, hunowned, hP⟩ := h
  cases hexec
  have hinflight (result : Unlinked) : (unlink s a key result).inflight = s.inflight := by
    simp [unlink, hclean.inflight]
  refine hf _ _ (hs.unlink hclean.session.pending ?_)
    ⟨hclean.session, (congrFun (hinflight _) a).trans hclean.inflight⟩ (hremoval s _ hP)
  refine ⟨⟨hunowned.abandoned.drawn, hunowned.abandoned.reserved, fun c p hp => ?_⟩, hunowned.purged⟩
  exact hunowned.abandoned.inflight c p (hinflight _ ▸ hp)

theorem purge_safe (id : MediaId) (hs : Invariant sha256 s) (h : Clean a s) :
    (purge id).Safe (service sha256 a) s (Ends sha256 (fun _ s => Clean a s) (Clean a)) := by
  have hmarked : (atomic (markPurged id)).Safe (service sha256 a) s
      (Ends sha256 (fun key s => Clean a s ∧ Unowned s key) (Clean a)) := by
    refine atomic_safe (markPurged_safe id hs h.unwritten) (fun _ => kept_purging) kept_inflight
      (fun s h => rollback_clean h) (fun key s hs h => ⟨commit_clean s a, ?_⟩)
      (fun _ s h => rollback_clean h.inflight) fun _ _ s _ _ _ => commit_clean s a
    obtain ⟨row, hrow, rfl, hpurged⟩ := purged_view h
    have hcommit := hs.commit (a := a) fun p hp => by cases h.inflight.symm.trans hp
    exact unowned_of_purged hcommit hrow hpurged
  refine bind_safe hmarked (fun key s hs h => ?_) fun _ s hs h => ⟨hs, h⟩
  unfold unlinkBytes
  split_ifs
  · exact removal_safe (P := fun _ => True) hs h.1 ⟨h.2, trivial⟩ (fun _ _ _ _ => trivial)
      (fun _ _ _ => trivial) fun _ s hs h _ => ⟨hs, h⟩
  · exact ⟨hs, h.1⟩

end IsadoraAir.ProductionMedia

/-!
## Sweeps are safe

A file that is old enough has been abandoned when it is listed, and stays so. It
is nobody's where a later look finds no present row for it.
-/

namespace IsadoraAir.ProductionMedia

open Routine (Safe)

variable {files rest : List Listed}

variable {α : Type} {sha256 : Bytes → String} {s s' : Shared α} {a : α} {β : Type}
  {P : Shared α → Prop} {key : String} {grace now : ℤ} {states : String → Option Retention}

/-- The sweep has begun: every ingest is to allow for it. -/
structure Begun (grace now : ℤ) (s : Shared α) : Prop where
  grace : grace ∈ s.graces
  now : now ≤ s.clock

theorem kept_begun : Kept a (Begun grace now) :=
  fun _ _ h hspares => ⟨hspares.grows.graces h.grace, h.now.trans hspares.grows.clock⟩

/-- The old files of a listing. -/
def Judged (grace now : ℤ) (files : List Listed) (s : Shared α) : Prop :=
  ∀ file ∈ files, grace ≤ now - file.2 → Abandoned s file.1

theorem kept_judged : Kept a (Judged grace now files) :=
  fun _ _ h hspares file hfile hold => hspares.abandoned file.1 (h file hfile hold)

/-- The old files of a batch that have no present row. -/
def Doomed (grace now : ℤ) (states : String → Option Retention) (files : List Listed)
    (s : Shared α) : Prop :=
  ∀ file ∈ files, grace ≤ now - file.2 → states file.1 ≠ some .present → Unowned s file.1

theorem kept_doomed : Kept a (Doomed grace now states files) :=
  fun _ _ h hspares file hfile hold hstate => hspares.unowned file.1 (h file hfile hold hstate)

/-- An old file belongs to no ingest that may still commit. -/
theorem abandoned_of_old (hs : Invariant sha256 s) (hbegun : Begun grace now s) {f : File}
    (hf : s.files.get? key = some f) {d : Decision} (hold : grace ≤ now - f.age d s.clock) :
    Abandoned s key := by
  have htouched : f.touched ≤ f.age d s.clock := le_max_left ..
  refine ⟨hs.drawn key (List.mem_map_of_mem (f := Prod.fst) (hs.files key f hf)),
    fun c id hid heq => ?_, fun c p hp heq => ?_⟩
  · cases hf.symm.trans (heq ▸ (hs.reserved c id hid).file)
  · have hage := (hs.inflight c p hp).age f (heq ▸ hf)
    have hnow := hbegun.now
    exact ⟨grace, hbegun.grace, by omega⟩

/-- No present row owns the key. -/
theorem purged_of_retentionOf {db : Db} (hsound : db.Sound) (h : db.retentionOf key ≠ some .present)
    {id : MediaId} {row : Row} (hrow : db.media.get? id = some row) (hkey : row.storageKey = key) :
    row.retention = .purged := by
  unfold Db.retentionOf at h
  cases hfind : db.media.values.find? fun row => row.storageKey = key with
  | none =>
    have hne := List.find?_eq_none.mp hfind row (Dict.mem_values_of_get? hrow)
    simp [hkey] at hne
  | some row' =>
    have hkey' : row'.storageKey = key := by simpa using List.find?_some hfind
    obtain ⟨⟨id', _⟩, hmem, rfl⟩ := List.mem_map.mp (List.mem_of_find?_eq_some hfind)
    have hrow' := Dict.get?_eq_some_iff.mpr hmem
    have hid : id' = id := by
      apply storageKeyFor_injective
      rw [← hsound.keys id' _ hrow', ← hsound.keys id row hrow, hkey]
      exact hkey'
    obtain rfl := Option.some.inj (hrow.symm.trans (hid ▸ hrow'))
    rw [hfind] at h
    cases hcase : row.retention with
    | present => simp [hcase] at h
    | purged => rfl

/-- What the look at the rows of a batch tells. -/
theorem doomed_of_judged (hs : Invariant sha256 s) (h : Judged grace now files s) :
    Doomed grace now (statesOf s.db (files.map Prod.fst)) files s := by
  intro file hfile hold hstate
  refine ⟨h file hfile hold, fun id row hrow hkey => ?_⟩
  rw [statesOf, if_pos (List.mem_map_of_mem (f := Prod.fst) hfile)] at hstate
  exact purged_of_retentionOf hs.sound hstate hrow hkey

variable [DecidableEq α]

/-- A removal abandons at most more. -/
theorem abandoned_unlink (h : Abandoned s key) (name : String) (result : Unlinked) :
    Abandoned (unlink s a name result) key := by
  refine h.mono ⟨le_rfl, fun _ h => h, fun _ h => h⟩ (fun _ _ h => .inl h) fun c p hc => ?_
  unfold unlink at hc
  dsimp only at hc
  split_ifs at hc
  · exact .inl (update_none_eq_some hc).2
  · exact .inl hc

theorem unowned_unlink (h : Unowned s key) (name : String) (result : Unlinked) :
    Unowned (unlink s a name result) key :=
  ⟨abandoned_unlink h.abandoned name result, h.purged⟩

/-! ### The listing -/

omit [DecidableEq α] in
theorem Judged.append {files' : List Listed} (h : Judged grace now files s)
    (h' : Judged grace now files' s) : Judged grace now (files ++ files') s :=
  fun file hfile => (List.mem_append.mp hfile).elim (h file) (h' file)

theorem statAll_safe (keys : List String) {seen : List Listed} (hs : Invariant sha256 s)
    (h : Clean a s) (hbegun : Begun grace now s) (hseen : Judged grace now seen s) :
    (statAll keys).Safe (service sha256 a) s
      (Ends sha256 (fun files s => Clean a s ∧ Judged grace now (seen ++ files) s) (Clean a)) := by
  induction keys generalizing seen s with
  | nil =>
    refine ⟨hs, h, ?_⟩
    rw [List.append_nil]
    exact hseen
  | cons key keys ih =>
    refine act_safe hs ⟨h, hbegun, hseen⟩ (kept_clean.and (kept_begun.and kept_judged))
      fun d s touched s' hs h _ hexec => ?_
    cases hexec
    obtain ⟨h, hbegun, hseen⟩ := h
    split
    · exact ⟨hs, h⟩
    · next touched htouched =>
      obtain ⟨f, hf, rfl⟩ := Option.map_eq_some_iff.mp htouched
      have hjudged : Judged grace now [(key, f.age d s.clock)] s := by
        intro file hfile hold
        rw [List.mem_singleton.mp hfile] at hold ⊢
        exact abandoned_of_old hs hbegun hf hold
      refine bind_safe (ih hs h hbegun (hseen.append hjudged)) (fun files s hs h => ⟨hs, h.1, ?_⟩)
        fun _ s hs h => ⟨hs, h⟩
      rw [List.append_assoc] at h
      exact h.2

/-! ### The removals -/

/-- What is left of a sweep: the rest of a batch, and the other batches. -/
structure Sweeping (grace now : ℤ) (states : String → Option Retention) (files rest : List Listed)
    (s : Shared α) : Prop where
  doomed : Doomed grace now states files s
  judged : Judged grace now rest s

omit [DecidableEq α] in
theorem kept_sweeping : Kept a (Sweeping grace now states files rest) :=
  fun s s' h hspares => ⟨kept_doomed s s' h.doomed hspares, kept_judged s s' h.judged hspares⟩

theorem sweeping_unlink (h : Sweeping grace now states files rest s)
    (name : String) (result : Unlinked) :
    Sweeping grace now states files rest (unlink s a name result) :=
  ⟨fun file hfile hold hstate => unowned_unlink (h.doomed file hfile hold hstate) name result,
    fun file hfile hold => abandoned_unlink (h.judged file hfile hold) name result⟩

omit [DecidableEq α] in
theorem Sweeping.tail {file : Listed} (h : Sweeping grace now states (file :: files) rest s) :
    Sweeping grace now states files rest s :=
  ⟨fun other hother => h.doomed other (List.mem_cons_of_mem _ hother), h.judged⟩

theorem sweepFile_safe (apply : Bool) (file : Listed) (report : SweepReport)
    (hs : Invariant sha256 s) (h : Clean a s)
    (hsweeping : Sweeping grace now states (file :: files) rest s) :
    (sweepFile grace now apply states file report).Safe (service sha256 a) s
      (Ends sha256 (fun _ s => Clean a s ∧ Sweeping grace now states files rest s) (Clean a)) := by
  unfold sweepFile
  split_ifs with hpresent hold
  · exact ⟨hs, h, hsweeping.tail⟩
  · cases apply
    · exact ⟨hs, h, hsweeping.tail⟩
    · have hunowned := hsweeping.doomed file (List.mem_cons_self ..) hold hpresent
      exact removal_safe hs h ⟨hunowned, hsweeping.tail⟩ kept_sweeping
        (fun _ _ h => sweeping_unlink h _ _) fun _ s hs h hP => ⟨hs, h, hP⟩
  · exact ⟨hs, h, hsweeping.tail⟩

theorem sweepFiles_safe (apply : Bool) (files : List Listed) (report : SweepReport)
    (hs : Invariant sha256 s) (h : Clean a s) (hsweeping : Sweeping grace now states files rest s) :
    (sweepFiles grace now apply states files report).Safe (service sha256 a) s
      (Ends sha256 (fun _ s => Clean a s ∧ Judged grace now rest s) (Clean a)) := by
  induction files generalizing s report with
  | nil => exact ⟨hs, h, hsweeping.judged⟩
  | cons file files ih =>
    exact bind_safe (sweepFile_safe apply file report hs h hsweeping)
      (fun report s hs h => ih report hs h.1 h.2) fun _ s hs h => ⟨hs, h⟩

theorem sweepBatches_safe (apply : Bool) (batches : List (List Listed)) (report : SweepReport)
    (hs : Invariant sha256 s) (h : Clean a s) (hjudged : Judged grace now batches.flatten s) :
    (sweepBatches grace now apply batches report).Safe (service sha256 a) s
      (Ends sha256 (fun _ s => Clean a s) (Clean a)) := by
  induction batches generalizing s report with
  | nil => exact ⟨hs, h⟩
  | cons batch batches ih =>
    refine act_safe hs ⟨h, hjudged⟩ (kept_clean.and kept_judged) fun d s states s' hs h _ hexec => ?_
    cases hexec
    obtain ⟨h, hjudged⟩ := h
    rw [List.flatten_cons] at hjudged
    have hbatch : Judged grace now batch s := fun file hfile =>
      hjudged file (List.mem_append_left _ hfile)
    have hrest : Judged grace now batches.flatten s := fun file hfile =>
      hjudged file (List.mem_append_right _ hfile)
    exact bind_safe (sweepFiles_safe apply batch report hs h ⟨doomed_of_judged hs hbatch, hrest⟩)
      (fun report s hs h => ih report hs h.1 h.2) fun _ s hs h => ⟨hs, h⟩

theorem flatten_toChunks_go {β : Type} (n : ℕ) (xs : List β) (batch : Array β)
    (batches : Array (List β)) :
    (List.toChunks.go n xs batch batches).flatten = batches.toList.flatten ++ batch.toList ++ xs := by
  induction xs generalizing batch batches with
  | nil => simp [List.toChunks.go]
  | cons x xs ih =>
    unfold List.toChunks.go
    split_ifs <;> simp [ih]

/-- Batches split a listing. -/
theorem flatten_toChunks {β : Type} (xs : List β) : (xs.toChunks batchSize).flatten = xs := by
  cases xs with
  | nil => rfl
  | cons x xs => exact flatten_toChunks_go _ xs #[x] #[]

theorem beginSweep_safe {f : ℤ → Service β} {R : Except Refusal β → Shared α → Prop}
    (hs : Invariant sha256 s) (h : Clean a s)
    (hf : ∀ now s, Invariant sha256 s → Clean a s → Begun grace now s →
      (f now).Safe (service sha256 a) s R) :
    (perform (.beginSweep grace) >>= f).Safe (service sha256 a) s R := by
  refine act_safe hs h kept_clean fun d s now s' hs h _ hexec => ?_
  cases hexec
  refine hf s.clock _ (hs.beginSweep grace) ⟨h.session, h.inflight⟩ ⟨?_, le_rfl⟩
  exact List.mem_append_right _ (List.mem_singleton_self _)

theorem sweepOrphanMedia_safe (grace : ℤ) (apply : Bool) (hs : Invariant sha256 s) (h : Clean a s) :
    (sweepOrphanMedia grace apply).Safe (service sha256 a) s
      (Ends sha256 (fun _ s => Clean a s) (Clean a)) := by
  unfold sweepOrphanMedia
  by_cases hgrace : grace < minGrace
  · rw [if_pos hgrace]
    exact ⟨hs, h⟩
  rw [if_neg hgrace]
  refine beginSweep_safe hs h fun now s hs h hbegun => ?_
  refine act_safe hs ⟨h, hbegun⟩ (kept_clean.and kept_begun) fun d s keys s' hs h _ hexec => ?_
  cases hexec
  have hnothing : Judged grace now [] s := fun _ hfile => by cases hfile
  refine bind_safe (statAll_safe _ hs h.1 h.2 hnothing) (fun listed s hs h => ?_)
    fun _ s hs h => ⟨hs, h⟩
  refine sweepBatches_safe apply _ _ hs h.1 ?_
  rw [flatten_toChunks]
  exact fun file hfile => h.2 file (List.mem_of_mem_filter hfile)

/-! ### Staging files -/

theorem sweepParts_safe (grace now : ℤ) (apply : Bool) (parts : List Uuid)
    (hs : Invariant sha256 s) (h : Clean a s) :
    (sweepParts grace now apply parts).Safe (service sha256 a) s
      (Ends sha256 (fun _ s => Clean a s) (Clean a)) := by
  induction parts generalizing s with
  | nil => exact ⟨hs, h⟩
  | cons part parts ih =>
    refine act_safe hs h kept_clean fun d s touched s' hs h _ hexec => ?_
    cases hexec
    split
    · exact ⟨hs, h⟩
    · next touched _ =>
      refine bind_safe (Q := fun _ s => Clean a s) (E := Clean a) ?_ (fun _ s hs h => ih hs h)
        fun _ s hs h => ⟨hs, h⟩
      unfold sweepParts.sweepPart
      by_cases hold : grace ≤ now - touched ∧ apply
      · rw [if_pos hold]
        exact unlinkPart_safe hs h kept_clean staging_clean fun _ s hs h => ⟨hs, h⟩
      · rw [if_neg hold]
        exact ⟨hs, h⟩

theorem sweepStaleParts_safe (grace : ℤ) (apply : Bool) (hs : Invariant sha256 s) (h : Clean a s) :
    (sweepStaleParts grace apply).Safe (service sha256 a) s
      (Ends sha256 (fun _ s => Clean a s) (Clean a)) := by
  unfold sweepStaleParts
  by_cases hgrace : grace < minGrace
  · rw [if_pos hgrace]
    exact ⟨hs, h⟩
  rw [if_neg hgrace]
  refine beginSweep_safe hs h fun now s hs h _ => ?_
  refine act_safe hs h kept_clean fun d s parts s' hs h _ hexec => ?_
  cases hexec
  exact sweepParts_safe grace now apply _ hs h

end IsadoraAir.ProductionMedia
