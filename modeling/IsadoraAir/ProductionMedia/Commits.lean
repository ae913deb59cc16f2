import IsadoraAir.ProductionMedia.Steps

/-!
# Custody and commits

What a transaction of the media store has in its custody, and what its commit
changes.
-/

/-!
## Custody of the bytes

Every present row has its bytes, and every key one content. What a transaction
has written is justified: what it has checked cannot change while it holds its
locks, and the bytes of a row to come stay as long as it may come.
-/

namespace IsadoraAir.ProductionMedia

variable {α : Type} {sha256 : Bytes → String} {s s' : Shared α} {a b : α} {db : Db}
  {id : MediaId} {row row' : Row} {key : String}

def Owns (s : Shared α) (a : α) (id : MediaId) : Prop := s.store.locks.owner id = some a

/-! ### Rows -/

/-- Nothing refers to the media. -/
structure Unreferenced (db : Db) (id : MediaId) : Prop where
  references : ∀ slot r, db.references.get? slot = some r → r.media ≠ id
  derivatives : ∀ i row, db.media.get? i = some row → row.derivedFrom ≠ some id

theorem unreferenced_of_count (h : db.referenceCount id = 0) : Unreferenced db id := by
  simp only [Db.referenceCount, Nat.add_eq_zero_iff, List.countP_eq_zero, decide_eq_true_eq] at h
  exact ⟨fun slot r hr => h.1 r (Dict.mem_values_of_get? hr),
    fun i row hrow => h.2 row (Dict.mem_values_of_get? hrow)⟩

/-- A media that may be referred to. -/
def Referable (db : Db) (r : Reference) : Prop :=
  ∃ row, db.media.get? r.media = some row ∧ row.retention = .present ∧
    row.airingProhibited = !r.airing

/-- A parent that the row may derive from. -/
def Derivable (db : Db) (row : Row) (parent : MediaId) : Prop :=
  ∃ p, db.media.get? parent = some p ∧ p.retention = .present ∧
    (p.airingProhibited = true → row.airingProhibited = true)

structure Db.Sound (db : Db) : Prop where
  keys : ∀ id row, db.media.get? id = some row → row.storageKey = storageKeyFor id
  references : ∀ slot r, db.references.get? slot = some r → Referable db r
  parents : ∀ id row parent, db.media.get? id = some row → row.derivedFrom = some parent →
    Derivable db row parent

/-- The columns that never change. -/
structure Row.Same (row' row : Row) : Prop where
  storageKey : row'.storageKey = row.storageKey
  sha256 : row'.sha256 = row.sha256
  byteSize : row'.byteSize = row.byteSize
  derivedFrom : row'.derivedFrom = row.derivedFrom
  airingProhibited : row'.airingProhibited = row.airingProhibited

/-! ### What a transaction has written -/

/-- The bytes of the row that an ingest inserts. -/
def Describes (sha256 : Bytes → String) (row : Row) (bytes : Bytes) : Prop :=
  sha256 bytes = row.sha256 ∧ bytes.length = row.byteSize

variable (sha256) in
/-- The row that an ingest inserts. -/
structure Inserts (s : Shared α) (a : α) (id : MediaId) (row : Row) : Prop where
  new : s.db.media.get? id = none
  key : row.storageKey = storageKeyFor id
  present : row.retention = .present
  bytes : ∃ p, s.inflight a = some p ∧ p.id = id ∧ Describes sha256 row p.bytes
  parent : ∀ parent, row.derivedFrom = some parent → Owns s a parent ∧ Derivable s.db row parent

variable (sha256) in
def Justified (s : Shared α) (a : α) : Write → Prop
  | .insert id row => Inserts sha256 s a id row
  | .verdict id _ => Owns s a id
  | .purge id => Owns s a id ∧ Unreferenced s.db id
  | .bind _ r => Owns s a r.media ∧ Referable s.db r
  | .unbind _ => True

def Write.isBinding : Write → Bool
  | .bind _ _ | .unbind _ => true
  | _ => false

/-- Bindings go together; anything else is alone in its transaction. -/
def Shape (writes : List Write) : Prop :=
  (∀ w ∈ writes, w.isBinding = true) ∨ ∃ w, writes = [w]

/-! ### Files -/

/-- No row of these bytes is still to come. -/
structure Abandoned (s : Shared α) (key : String) : Prop where
  drawn : key ∈ s.drawn
  reserved : ∀ a id, s.reserved a = some id → storageKeyFor id ≠ key
  inflight : ∀ a p, s.inflight a = some p → p.key = key → Late s p

/-- No present row owns these bytes, or ever will. -/
structure Unowned (s : Shared α) (key : String) : Prop where
  abandoned : Abandoned s key
  purged : ∀ id row, s.db.media.get? id = some row → row.storageKey = key → row.retention = .purged

/-- Bytes that wait for their row. -/
structure Flying (s : Shared α) (p : Promotion) : Prop where
  drawn : p.key ∈ s.drawn
  new : s.db.media.get? p.id = none
  reserved : ∀ a, s.reserved a ≠ some p.id
  bytes : ¬Late s p → ∃ f, s.files.get? p.key = some f ∧ f.bytes = p.bytes
  age : ∀ f, s.files.get? p.key = some f → p.promotedAt ≤ f.touched

/-- Nothing has ever had this name. -/
structure Unused (s : Shared α) (id : MediaId) : Prop where
  drawn : storageKeyFor id ∈ s.drawn
  row : s.db.media.get? id = none
  file : s.files.get? (storageKeyFor id) = none
  stored : storageKeyFor id ∉ s.stored.map Prod.fst

variable (sha256) in
structure Invariant (s : Shared α) : Prop where
  sound : s.db.Sound
  backed : ∀ id row, s.db.media.get? id = some row → row.retention = .present →
    ∃ f, s.files.get? row.storageKey = some f ∧ Describes sha256 row f.bytes
  justified : ∀ a, ∀ w ∈ s.store.pending a, Justified sha256 s a w
  shape : ∀ a, Shape (s.store.pending a)
  inflight : ∀ a p, s.inflight a = some p → Flying s p
  inflightOnce : ∀ a b p q, s.inflight a = some p → s.inflight b = some q → p.id = q.id → a = b
  reserved : ∀ a id, s.reserved a = some id → Unused s id
  reservedOnce : ∀ a b id, s.reserved a = some id → s.reserved b = some id → a = b
  uploads : ∀ a part, s.uploads a = some part → storageKeyFor part ∈ s.drawn
  uploadsOnce : ∀ a b part, s.uploads a = some part → s.uploads b = some part → a = b
  drawn : ∀ key, key ∈ s.stored.map Prod.fst → key ∈ s.drawn
  rows : ∀ id row, s.db.media.get? id = some row → row.storageKey ∈ s.drawn
  stored : (s.stored.map Prod.fst).Nodup
  files : ∀ key f, s.files.get? key = some f → (key, f.bytes) ∈ s.stored
  removed : ∀ key ∈ s.removed, Unowned s key

/-! ### What only grows -/

structure Grows (s s' : Shared α) : Prop where
  clock : s.clock ≤ s'.clock
  graces : s.graces ⊆ s'.graces
  drawn : s.drawn ⊆ s'.drawn

theorem Grows.refl (s : Shared α) : Grows s s := ⟨le_rfl, fun _ h => h, fun _ h => h⟩

theorem Late.mono {p : Promotion} (h : Late s p) (hgrows : Grows s s') : Late s' p := by
  obtain ⟨grace, hgrace, hle⟩ := h
  exact ⟨grace, hgrows.graces hgrace, hle.trans (Int.sub_le_sub_right hgrows.clock _)⟩

theorem Abandoned.mono (h : Abandoned s key) (hgrows : Grows s s')
    (hreserved : ∀ a id, s'.reserved a = some id → s.reserved a = some id ∨ storageKeyFor id ≠ key)
    (hinflight : ∀ a p, s'.inflight a = some p → s.inflight a = some p ∨ p.key ≠ key) :
    Abandoned s' key where
  drawn := hgrows.drawn h.drawn
  reserved a id hid := (hreserved a id hid).elim (h.reserved a id) fun hne => hne
  inflight a p hp hkey :=
    (hinflight a p hp).elim (fun hp => (h.inflight a p hp hkey).mono hgrows) fun hne => absurd hkey hne

/-- What an agent has after one agent has got or lost it. -/
theorem update_eq_some {β : Type} [DecidableEq α] {f : α → Option β} {x : Option β} {y : β}
    (h : Function.update f a x b = some y) : b = a ∧ x = some y ∨ b ≠ a ∧ f b = some y := by
  by_cases hb : b = a
  · subst hb
    rw [Function.update_self] at h
    exact .inl ⟨rfl, h⟩
  · rw [Function.update_of_ne hb] at h
    exact .inr ⟨hb, h⟩

/-- What is left after an agent has lost it. -/
theorem update_none_eq_some {β : Type} [DecidableEq α] {f : α → Option β} {y : β}
    (h : Function.update f a none b = some y) : b ≠ a ∧ f b = some y :=
  (update_eq_some h).resolve_left fun h => by cases h.2

end IsadoraAir.ProductionMedia

/-!
## What a commit changes

A transaction inserts one row, changes one row that it has locked, or binds
media that it has locked. What others have checked under their locks stays.
-/

namespace IsadoraAir.ProductionMedia

variable {parent : MediaId} {r : Reference} {slot : ℕ}

variable {α : Type} {sha256 : Bytes → String} {s : Shared α} {a b : α} {db : Db}
  {id : MediaId} {row row' : Row} {key : String}

/-- A locked media is validated or purged. -/
structure Changes (s : Shared α) (a : α) (id : MediaId) (row row' : Row) : Prop where
  old : s.db.media.get? id = some row
  owns : Owns s a id
  same : row'.Same row
  retention : row'.retention = row.retention ∨ row'.retention = .purged ∧ Unreferenced s.db id

variable (sha256) in
inductive Commits (s : Shared α) (a : α) : Db → Prop
  | insert {id : MediaId} {row : Row} (h : Inserts sha256 s a id row) :
    Commits s a ⟨s.db.media.insert id row, s.db.references⟩
  | change {id : MediaId} {row row' : Row} (h : Changes s a id row row') :
    Commits s a ⟨s.db.media.insert id row', s.db.references⟩
  | bind {references : Dict ℕ Reference}
    (h : ∀ slot r, references.get? slot = some r →
      s.db.references.get? slot = some r ∨ Owns s a r.media ∧ Referable s.db r) :
    Commits s a ⟨s.db.media, references⟩

theorem commits_nothing : Commits sha256 s a s.db := .bind fun _ _ h => .inl h

/-- A conditional UPDATE of a locked row. -/
theorem commits_update {p : Row → Bool} {f : Row → Row} (hown : Owns s a id)
    (hsame : ∀ row, (f row).Same row) (hretention : ∀ row, (f row).retention = row.retention ∨
      (f row).retention = .purged ∧ Unreferenced s.db id) :
    Commits sha256 s a (s.db.update id p f) := by
  unfold Db.update
  split
  · next row hrow =>
    split_ifs
    · exact .change ⟨hrow, hown, hsame row, hretention row⟩
    · exact commits_nothing
  · exact commits_nothing

/-- A single write that is justified. -/
theorem commits_apply {w : Write} (h : Justified sha256 s a w) :
    Commits sha256 s a (s.db.apply w) := by
  cases w with
  | insert id row => exact .insert h
  | verdict id v => exact commits_update h (fun _ => ⟨rfl, rfl, rfl, rfl, rfl⟩) fun _ => .inl rfl
  | purge id =>
    exact commits_update h.1 (fun _ => ⟨rfl, rfl, rfl, rfl, rfl⟩) fun _ => .inr ⟨rfl, h.2⟩
  | bind slot r =>
    refine .bind fun slot' r' hget => ?_
    rw [Dict.get?_insert] at hget
    split_ifs at hget
    · cases hget
      exact .inr h
    · exact .inl hget
  | unbind slot =>
    refine .bind fun slot' r' hget => ?_
    rw [Dict.get?_erase] at hget
    split_ifs at hget
    exact .inl hget

/-- Bindings change no media. -/
theorem commits_bindings {writes : List Write} (hbinding : ∀ w ∈ writes, w.isBinding = true)
    (h : ∀ w ∈ writes, Justified sha256 s a w) {references : Dict ℕ Reference}
    (hreferences : ∀ slot r, references.get? slot = some r →
      s.db.references.get? slot = some r ∨ Owns s a r.media ∧ Referable s.db r) :
    Commits sha256 s a (writes.foldl Db.apply ⟨s.db.media, references⟩) := by
  induction writes generalizing references with
  | nil => exact .bind hreferences
  | cons w rest ih =>
    obtain ⟨hw, hrest⟩ := List.forall_mem_cons.mp h
    obtain ⟨hwbinding, hrestbinding⟩ := List.forall_mem_cons.mp hbinding
    rw [List.foldl_cons]
    cases w with
    | bind slot r =>
      refine ih hrestbinding hrest fun slot' r' hget => ?_
      rw [Dict.get?_insert] at hget
      split_ifs at hget
      · cases hget
        exact .inr hw
      · exact hreferences slot' r' hget
    | unbind slot =>
      refine ih hrestbinding hrest fun slot' r' hget => ?_
      rw [Dict.get?_erase] at hget
      split_ifs at hget
      exact hreferences slot' r' hget
    | insert id row => cases hwbinding
    | verdict id v => cases hwbinding
    | purge id => cases hwbinding

theorem commits_view (hs : Invariant sha256 s) (a : α) :
    Commits sha256 s a (s.store.view Db.apply a) := by
  unfold Sessions.view
  rcases hs.shape a with hbinding | ⟨w, hw⟩
  · exact commits_bindings hbinding (hs.justified a) fun _ _ h => .inl h
  · have hjustified := hs.justified a w (by simp [hw])
    rw [hw]
    exact commits_apply hjustified

/-! ### Rows -/

namespace Commits

theorem get?_of_not_owns (h : Commits sha256 s a db) (hrow : s.db.media.get? id = some row)
    (hown : ¬Owns s a id) : db.media.get? id = some row := by
  cases h with
  | bind h => exact hrow
  | @insert id' row' h =>
    rw [Dict.get?_insert, if_neg]
    · exact hrow
    · rintro rfl
      rw [h.new] at hrow
      cases hrow
  | @change id' row₀ row' h =>
    rw [Dict.get?_insert, if_neg]
    · exact hrow
    · rintro rfl
      exact hown h.owns

/-- Where a row comes from. -/
theorem get?_cases (h : Commits sha256 s a db) (hrow : db.media.get? id = some row) :
    s.db.media.get? id = some row ∨ Inserts sha256 s a id row ∨
      ∃ row₀, Changes s a id row₀ row := by
  cases h with
  | bind h => exact .inl hrow
  | @insert id' row' h =>
    rw [Dict.get?_insert] at hrow
    split_ifs at hrow with hid
    · cases hrow
      exact .inr (.inl (hid ▸ h))
    · exact .inl hrow
  | @change id' row₀ row' h =>
    rw [Dict.get?_insert] at hrow
    split_ifs at hrow with hid
    · cases hrow
      exact .inr (.inr ⟨row₀, hid ▸ h⟩)
    · exact .inl hrow

/-- A row stays, and stays purged. -/
theorem get?_kept (h : Commits sha256 s a db) (hrow : s.db.media.get? id = some row) :
    ∃ row', db.media.get? id = some row' ∧ row'.Same row ∧
      (row'.retention = row.retention ∨ row'.retention = .purged ∧ Unreferenced s.db id) := by
  have hsame : row.Same row := ⟨rfl, rfl, rfl, rfl, rfl⟩
  cases h with
  | bind h => exact ⟨row, hrow, hsame, .inl rfl⟩
  | @insert id' row' h =>
    have hne : id ≠ id' := by
      rintro rfl
      rw [h.new] at hrow
      cases hrow
    refine ⟨row, ?_, hsame, .inl rfl⟩
    rw [Dict.get?_insert, if_neg hne]
    exact hrow
  | @change id' row₀ row' h =>
    by_cases hid : id = id'
    · subst hid
      obtain rfl := Option.some.inj (hrow.symm.trans h.old)
      exact ⟨row', by simp, h.same, h.retention⟩
    · refine ⟨row, ?_, hsame, .inl rfl⟩
      rw [Dict.get?_insert, if_neg hid]
      exact hrow

theorem get?_none (h : Commits sha256 s a db) (hrow : s.db.media.get? id = none)
    (hinflight : ∀ p, s.inflight a = some p → p.id ≠ id) : db.media.get? id = none := by
  by_contra hne
  obtain ⟨row, hget⟩ := Option.ne_none_iff_exists'.mp hne
  rcases h.get?_cases hget with hold | hnew | ⟨row₀, hchange⟩
  · rw [hrow] at hold
    cases hold
  · obtain ⟨p, hp, hid, -⟩ := hnew.bytes
    exact hinflight p hp hid
  · cases hrow.symm.trans hchange.old

theorem reference_cases (h : Commits sha256 s a db) (hr : db.references.get? slot = some r) :
    s.db.references.get? slot = some r ∨ Owns s a r.media ∧ Referable s.db r := by
  cases h with
  | bind h => exact h slot r hr
  | insert h => exact .inl hr
  | change h => exact .inl hr

/-- Nobody else refers to a media that is locked. -/
theorem unreferenced (h : Commits sha256 s a db) (hid : Unreferenced s.db id)
    (hown : ¬Owns s a id) : Unreferenced db id where
  references slot r hr := by
    rcases h.reference_cases hr with hr | ⟨howns, -⟩
    · exact hid.references slot r hr
    · rintro rfl
      exact hown howns
  derivatives i row hrow hderived := by
    rcases h.get?_cases hrow with hrow | hnew | ⟨row₀, hchange⟩
    · exact hid.derivatives i row hrow hderived
    · exact hown (hnew.parent id hderived).1
    · exact hid.derivatives i row₀ hchange.old (hchange.same.derivedFrom ▸ hderived)

/-- A media that is referred to keeps what a reference relies on. -/
theorem referable (h : Commits sha256 s a db) (hr : Referable s.db r)
    (hreferred : ¬Unreferenced s.db r.media ∨ ¬Owns s a r.media) : Referable db r := by
  obtain ⟨row, hrow, hpresent, hprohibited⟩ := hr
  rcases hreferred with hreferred | hown
  · obtain ⟨row', hrow', hsame, hretention⟩ := h.get?_kept hrow
    refine ⟨row', hrow', ?_, hsame.airingProhibited.trans hprohibited⟩
    rcases hretention with hretention | hpurged
    · exact hretention.trans hpresent
    · exact absurd hpurged.2 hreferred
  · exact ⟨row, h.get?_of_not_owns hrow hown, hpresent, hprohibited⟩

theorem derivable (h : Commits sha256 s a db) (hparent : Derivable s.db row parent)
    (hreferred : ¬Unreferenced s.db parent ∨ ¬Owns s a parent) : Derivable db row parent := by
  obtain ⟨p, hp, hpresent, hprohibited⟩ := hparent
  rcases hreferred with hreferred | hown
  · obtain ⟨p', hp', hsame, hretention⟩ := h.get?_kept hp
    refine ⟨p', hp', ?_, fun h => hprohibited (hsame.airingProhibited ▸ h)⟩
    rcases hretention with hretention | hpurged
    · exact hretention.trans hpresent
    · exact absurd hpurged.2 hreferred
  · exact ⟨p, h.get?_of_not_owns hp hown, hpresent, hprohibited⟩

/-- What is referred to already. -/
theorem referable_old (h : Commits sha256 s a db) (hs : s.db.Sound)
    (hr : s.db.references.get? slot = some r) : Referable db r :=
  h.referable (hs.references slot r hr) (.inl fun hnone => hnone.references slot r hr rfl)

theorem derivable_old (h : Commits sha256 s a db) (hs : s.db.Sound)
    (hrow : s.db.media.get? id = some row) (hparent : row.derivedFrom = some parent) :
    Derivable db row parent :=
  h.derivable (hs.parents id row parent hrow hparent)
    (.inl fun hnone => hnone.derivatives id row hrow hparent)

theorem keys (h : Commits sha256 s a db) (hs : s.db.Sound) (hrow : db.media.get? id = some row) :
    row.storageKey = storageKeyFor id := by
  rcases h.get?_cases hrow with hold | hnew | ⟨row₀, hchange⟩
  · exact hs.keys id row hold
  · exact hnew.key
  · exact hchange.same.storageKey.trans (hs.keys id row₀ hchange.old)

theorem references (h : Commits sha256 s a db) (hs : s.db.Sound)
    (hr : db.references.get? slot = some r) : Referable db r := by
  have hold (slot : ℕ) (r : Reference) (hr : s.db.references.get? slot = some r) :=
    h.referable_old hs hr
  cases h with
  | insert h => exact hold slot r hr
  | change h => exact hold slot r hr
  | bind h => exact (h slot r hr).elim (hold slot r) And.right

theorem parents (h : Commits sha256 s a db) (hs : s.db.Sound)
    (hrow : db.media.get? id = some row) (hparent : row.derivedFrom = some parent) :
    Derivable db row parent := by
  have hcommits := h
  cases h with
  | bind h => exact hs.parents id row parent hrow hparent
  | @insert id' row' h =>
    have hderivable : Derivable s.db row parent := by
      rw [Dict.get?_insert] at hrow
      split_ifs at hrow
      · cases hrow
        exact (h.parent parent hparent).2
      · exact hs.parents id row parent hrow hparent
    obtain ⟨p, hp, hrest⟩ := hderivable
    refine ⟨p, ?_, hrest⟩
    rw [Dict.get?_insert, if_neg]
    · exact hp
    · rintro rfl
      cases h.new.symm.trans hp
  | @change id' row₀ row' h =>
    rw [Dict.get?_insert] at hrow
    split_ifs at hrow with hid
    · cases hrow
      obtain ⟨p, hp, hpresent, hprohibited⟩ :=
        hcommits.derivable_old hs h.old (h.same.derivedFrom ▸ hparent)
      exact ⟨p, hp, hpresent, fun hp => h.same.airingProhibited ▸ hprohibited hp⟩
    · exact hcommits.derivable_old hs hrow hparent

theorem sound (h : Commits sha256 s a db) (hs : s.db.Sound) : db.Sound :=
  ⟨fun _ _ => h.keys hs, fun _ _ => h.references hs, fun _ _ _ => h.parents hs⟩

end Commits

end IsadoraAir.ProductionMedia
