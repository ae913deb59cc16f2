import IsadoraAir.WebRequests.SongRequest

/-!
# What a worker knows and commits

What holds between the queries of a worker, and across its commit.
-/

/-!
## What a worker knows

Each worker knows something in its place, because it read it from rows that are
locked, or that only lose requests. A step of another worker keeps it.
-/

namespace IsadoraAir.WebRequests

variable {a : Assignment} {db' : Database} {versions : List SongRequest} {rows : Row → Bool}
  {r' : SongRequest} {condition : SongRequest → Bool} {α : Type} {station : Station}

/-! ### What a compare-and-set may do to a row -/

namespace SongRequest

/-- The request spends a slot on the log item. -/
def Carries (r : SongRequest) (item : ℕ) : Prop :=
  (r.status = .scheduled ∨ r.status = .fulfilled) ∧ r.logItem = some item

def Reserves (r : SongRequest) (item : ℕ) : Prop := r.status = .scheduled ∧ r.logItem = some item

/-- The new row spends and reserves nothing that the old row did not. -/
structure Yields (r r' : SongRequest) : Prop where
  carries : ∀ item, r'.Carries item → r.Carries item
  scheduled : r'.status = .scheduled → r.status = .scheduled ∧ r'.logItem = r.logItem

theorem Yields.refl (r : SongRequest) : r.Yields r := ⟨fun _ h => h, fun h => ⟨h, rfl⟩⟩

/-- A row that is no longer scheduled or fulfilled has let go of its item. -/
theorem yields_of_idle {r : SongRequest} (hs : r'.status ≠ .scheduled)
    (hf : r'.status ≠ .fulfilled) : r.Yields r' where
  carries := by
    rintro item ⟨h | h, -⟩
    · exact absurd h hs
    · exact absurd h hf
  scheduled := fun h => absurd h hs

end SongRequest

namespace Database

theorem mem_update {db : Database} :
    r' ∈ (db.update condition a).requests.items ↔
      ∃ r ∈ db.requests.items, r' = if condition r then a.apply r else r := by
  constructor
  · intro h
    obtain ⟨r, hr, rfl⟩ := List.mem_map.mp h
    exact ⟨r, hr, rfl⟩
  · rintro ⟨r, hr, rfl⟩
    exact List.mem_map.mpr ⟨r, hr, rfl⟩

/-- The requests of the second table yield to those of the first, row by row. -/
def Yields (db db' : Database) : Prop :=
  ∀ r' ∈ db'.requests.items, ∃ r ∈ db.requests.items, r.Yields r' ∧ r'.track = r.track

theorem Yields.reserved {db : Database} (h : db.Yields db') {item : ℕ}
    (hr : db'.Reserved item) : db.Reserved item := by
  obtain ⟨r', hr', hstatus, hitem⟩ := hr
  obtain ⟨r, hr, hyields, -⟩ := h r' hr'
  obtain ⟨hscheduled, hlog⟩ := hyields.scheduled hstatus
  exact ⟨r, hr, hscheduled, hlog ▸ hitem⟩

theorem Yields.carriers {db : Database} (h : db.Yields db')
    (hlogs : ∀ i, (db'.items i).map LogItem.playlistLog = (db.items i).map LogItem.playlistLog)
    (log : ℕ) : db'.carriers log ⊆ db.carriers log := by
  intro item hitem
  obtain ⟨⟨r', hr', hcarries⟩, hlog⟩ := mem_carriers.mp hitem
  obtain ⟨r, hr, hyields, -⟩ := h r' hr'
  exact mem_carriers.mpr ⟨⟨r, hr, hyields.carries item hcarries⟩, hlogs item ▸ hlog⟩

end Database

/-! ### The invariants -/

structure DbSound (station : Station) (db : Database) : Prop where
  capacity : ∀ log, (db.carriers log).card ≤ station.cfg.maxFulfilledPerHour
  item_id : ∀ i item, db.items i = some item → item.id = i
  aired : ∀ i item track, db.items i = some item → item.playedAt ≠ none →
    item.track = some track → (i, track) ∈ db.airings
  tracked : ∀ r ∈ db.requests.items, r.status = .scheduled → r.track ≠ none

/-- A scheduling transaction holds the log and the item; the item as the
transaction sees it may have another track, unless the row is reserved. -/
structure Holds (s : Shared α) (a : α) (item : LogItem) (log : ℕ) : Prop where
  logLocked : s.locks.owner (.log log) = some a
  itemLocked : s.locks.owner (.item item.id) = some a
  hasTrack : item.track ≠ none
  row : ∃ row, s.db.items item.id = some row ∧ row.playlistLog = log ∧ row.playedAt = none ∧
    (item.track ≠ row.track → ¬s.db.Reserved item.id)

/-- The log has a slot for the item, or the item has one already. -/
def HasRoom (station : Station) (db : Database) (log item : ℕ) : Prop :=
  (insert item (db.carriers log)).card ≤ station.cfg.maxFulfilledPerHour

/-- The uncommitted versions schedule locked waiting rows into the item, whose track they want. -/
def Schedules (s : Shared α) (a : α) (item : LogItem) (versions : List SongRequest) : Prop :=
  ∀ v ∈ versions, v.status = .scheduled ∧ v.logItem = some item.id ∧ v.track = item.track ∧
    s.locks.owner (.request v.id) = some a ∧
    ∃ r ∈ s.db.requests.items, r.id = v.id ∧ r.status.isWaiting ∧ r.track = v.track

/-- What a worker knows in its place. -/
def PlaceSound (station : Station) (s : Shared α) (a : α) : Place → Prop
  | .idle => True
  | .lockedLog item log _ => s.locks.owner (.log log) = some a ∧
    (s.db.items item).map LogItem.playlistLog = some log
  | .lockedItem item log _ => Holds s a item log ∧ s.db.items item.id = some item
  | .asked item log _ alreadyReserved => Holds s a item log ∧ s.db.items item.id = some item ∧
    (alreadyReserved = true → HasRoom station s.db log item.id) ∧
    (alreadyReserved = false → ¬s.db.Reserved item.id)
  | .counted item log _ capacityAvailable alreadyReserved =>
    Holds s a item log ∧ s.db.items item.id = some item ∧
    (capacityAvailable = true → HasRoom station s.db log item.id) ∧
    (alreadyReserved = false → ¬s.db.Reserved item.id)
  | .picked item log _ capacityAvailable versions => Holds s a item log ∧
    (capacityAvailable = true → HasRoom station s.db log item.id) ∧
    (capacityAvailable = false → versions = []) ∧ Schedules s a item versions
  | .collapsed item log versions => Holds s a item log ∧
    (versions ≠ [] → HasRoom station s.db log item.id) ∧ Schedules s a item versions
  | .airing item => s.locks.owner (.item item.id) = some a ∧ s.db.items item.id = some item
  | .reconciling pass _ rows => pass = .aired → ∀ x ∈ rows, ∀ item, x.item = some item →
    item.track = x.request.track → ∃ i track, x.request.logItem = some i ∧
      x.request.track = some track ∧ (i, track) ∈ s.db.airings

structure Sound (station : Station) (s : State α) : Prop where
  db : DbSound station s.db
  place : ∀ a, PlaceSound station s.toShared a (s.place a)

/-! ### What a worker's step leaves to the others -/

structure Frame (b : α) (s s' : State α) : Prop where
  place : s'.place b = s.place b
  owner : ∀ row, s.locks.owner row = some b → s'.locks.owner row = some b
  logs : ∀ i, (s'.db.items i).map LogItem.playlistLog = (s.db.items i).map LogItem.playlistLog
  item : ∀ i, s.locks.owner (.item i) = some b → s'.db.items i = s.db.items i
  request : ∀ r ∈ s.db.requests.items, s.locks.owner (.request r.id) = some b →
    r ∈ s'.db.requests.items
  reserved : ∀ i, s.locks.owner (.item i) = some b → s'.db.Reserved i → s.db.Reserved i
  carriers : ∀ log, s.locks.owner (.log log) = some b →
    s'.db.carriers log ⊆ s.db.carriers log
  airings : s.db.airings ⊆ s'.db.airings

/-- What a step keeps: requests evolve as they may, new ones are pending, reserved items keep
their track. -/
structure Keeps (db db' : Database) : Prop where
  requests : ∀ r ∈ db.requests.items, ∃ r' ∈ db'.requests.items, Evolves db'.airings r r'
  origin : ∀ r' ∈ db'.requests.items,
    (∃ r ∈ db.requests.items, Evolves db'.airings r r') ∨ r'.status = .pending
  track : ∀ i, db.Reserved i → (db'.items i).map LogItem.track = (db.items i).map LogItem.track

theorem Keeps.refl (db : Database) : Keeps db db :=
  ⟨fun r hr => ⟨r, hr, .refl _ r⟩, fun r hr => .inl ⟨r, hr, .refl _ r⟩, fun _ _ => rfl⟩

/-! ### A changed item -/

section Put

variable {db : Database} {item : LogItem} (item' : LogItem)

theorem put_items (hrow : db.items item.id = some item) (hid : item'.id = item.id) (i : ℕ) :
    (db.put item').items i = db.items i ∨
      i = item.id ∧ db.items i = some item ∧ (db.put item').items i = some item' := by
  by_cases h : i = item.id
  · subst h
    refine .inr ⟨rfl, hrow, ?_⟩
    rw [← hid]
    exact Function.update_self ..
  · refine .inl (Function.update_of_ne ?_ ..)
    rw [hid]
    exact h

theorem put_map {β : Type} (hrow : db.items item.id = some item) (hid : item'.id = item.id)
    {f : LogItem → β} (hf : f item' = f item) (i : ℕ) :
    ((db.put item').items i).map f = (db.items i).map f := by
  rcases put_items item' hrow hid i with hsame | ⟨-, hold, hnew⟩
  · rw [hsame]
  · rw [hold, hnew, Option.map_some, Option.map_some, hf]

theorem put_carriers (hrow : db.items item.id = some item) (hid : item'.id = item.id)
    (hlog : item'.playlistLog = item.playlistLog) (log : ℕ) :
    (db.put item').carriers log ⊆ db.carriers log := by
  intro i hi
  obtain ⟨hcarries, hi⟩ := Database.mem_carriers.mp hi
  exact Database.mem_carriers.mpr ⟨hcarries, (put_map item' hrow hid hlog i).symm.trans hi⟩

theorem put_frame {s : State α} {b : α} (hrow : s.db.items item.id = some item)
    (hid : item'.id = item.id) (hlog : item'.playlistLog = item.playlistLog)
    (hfree : s.locks.owner (.item item.id) ≠ some b) :
    Frame b s { s with db := s.db.put item' } where
  place := rfl
  owner _ h := h
  logs := put_map item' hrow hid hlog
  item := by
    intro i hi
    rcases put_items item' hrow hid i with hsame | ⟨rfl, -, -⟩
    · exact hsame
    · exact absurd hi hfree
  request _ hr _ := hr
  reserved _ _ h := h
  carriers log _ := put_carriers item' hrow hid hlog log
  airings := List.Subset.refl _

end Put

/-! ### Updates of requests alone -/

theorem Database.yields_update {db : Database} (h : ∀ r ∈ db.requests.items, condition r →
      r.Yields (a.apply r) ∧ (a.apply r).track = r.track) : db.Yields (db.update condition a) := by
  intro r' hr'
  obtain ⟨r, hr, rfl⟩ := mem_update.mp hr'
  refine ⟨r, hr, ?_⟩
  split_ifs with hcond
  · exact h r hr hcond
  · exact ⟨.refl r, rfl⟩

theorem DbSound.of_yields {db : Database} (h : DbSound station db) (hy : db.Yields db')
    (hitems : db'.items = db.items) (hairings : db'.airings = db.airings) :
    DbSound station db' where
  capacity log :=
    (Finset.card_le_card (hy.carriers (fun i => by rw [hitems]) log)).trans (h.capacity log)
  item_id := by
    rw [hitems]
    exact h.item_id
  aired := by
    rw [hitems, hairings]
    exact h.aired
  tracked := by
    intro r' hr' hstatus
    obtain ⟨r, hr, hyields, htrack⟩ := hy r' hr'
    rw [htrack]
    exact h.tracked r hr (hyields.scheduled hstatus).1

/-- An update leaves a worker alone when it touches none of the worker's rows. -/
theorem Frame.update {s : State α} {b : α} (hy : s.db.Yields (s.db.update condition a))
    (hfree : ∀ r ∈ s.db.requests.items, condition r → s.locks.owner (.request r.id) ≠ some b) :
    Frame b s { s with db := s.db.update condition a } where
  place := rfl
  owner _ h := h
  logs _ := rfl
  item _ _ := rfl
  request := by
    intro r hr hlocked
    refine Database.mem_update.mpr ⟨r, hr, ?_⟩
    rw [if_neg fun hcond => hfree r hr hcond hlocked]
  reserved _ _ h := hy.reserved h
  carriers log _ := hy.carriers (fun _ => rfl) log
  airings := List.Subset.refl _

theorem Keeps.update {db : Database}
    (h : ∀ r ∈ db.requests.items, condition r → Evolves db.airings r (a.apply r)) :
    Keeps db (db.update condition a) := by
  have hrow : ∀ r ∈ db.requests.items,
      Evolves db.airings r (if condition r then a.apply r else r) := by
    intro r hr
    split_ifs with hcond
    · exact h r hr hcond
    · exact .refl _ r
  refine ⟨?_, ?_, fun _ _ => rfl⟩
  · intro r hr
    exact ⟨_, Database.mem_update.mpr ⟨r, hr, rfl⟩, hrow r hr⟩
  · intro r' hr'
    obtain ⟨r, hr, rfl⟩ := Database.mem_update.mp hr'
    exact .inl ⟨r, hr, hrow r hr⟩

section Frame

variable {b : α} {s s' : State α} {item : LogItem} {log : ℕ}

theorem Frame.holds (h : Frame b s s') (hb : Holds s.toShared b item log) :
    Holds s'.toShared b item log := by
  obtain ⟨row, hrow, hlog, hplayed, hreserved⟩ := hb.row
  refine ⟨h.owner _ hb.logLocked, h.owner _ hb.itemLocked, hb.hasTrack, row, ?_, hlog, hplayed, ?_⟩
  · rw [h.item _ hb.itemLocked]
    exact hrow
  · intro hne hr
    exact hreserved hne (h.reserved _ hb.itemLocked hr)

theorem Frame.hasRoom (h : Frame b s s') (hb : Holds s.toShared b item log)
    (hroom : HasRoom station s.db log item.id) : HasRoom station s'.db log item.id :=
  (Finset.card_le_card (Finset.insert_subset_insert _ (h.carriers log hb.logLocked))).trans hroom

theorem Frame.schedules (h : Frame b s s') (hv : Schedules s.toShared b item versions) :
    Schedules s'.toShared b item versions := by
  intro v hmem
  obtain ⟨hstatus, hitem, htrack, howner, r, hr, hid, hwaiting, hwants⟩ := hv v hmem
  have hlocked : s.locks.owner (.request r.id) = some b := by rw [hid]; exact howner
  exact ⟨hstatus, hitem, htrack, h.owner _ howner, r, h.request r hr hlocked, hid, hwaiting, hwants⟩

/-- What a worker knows survives the steps of the others. -/
theorem Frame.placeSound (h : Frame b s s') (hb : PlaceSound station s.toShared b (s.place b)) :
    PlaceSound station s'.toShared b (s'.place b) := by
  rw [h.place]
  cases hp : s.place b with
  | idle => trivial
  | lockedLog i log now =>
    rw [hp] at hb
    exact ⟨h.owner _ hb.1, (h.logs i).trans hb.2⟩
  | lockedItem item log now =>
    rw [hp] at hb
    obtain ⟨hholds, hrow⟩ := hb
    exact ⟨h.holds hholds, (h.item _ hholds.itemLocked).trans hrow⟩
  | asked item log now reserved =>
    rw [hp] at hb
    obtain ⟨hholds, hrow, hroom, hfree⟩ := hb
    exact ⟨h.holds hholds, (h.item _ hholds.itemLocked).trans hrow,
      fun hr => h.hasRoom hholds (hroom hr),
      fun hr hreserved => hfree hr (h.reserved _ hholds.itemLocked hreserved)⟩
  | counted item log now capacity reserved =>
    rw [hp] at hb
    obtain ⟨hholds, hrow, hroom, hfree⟩ := hb
    exact ⟨h.holds hholds, (h.item _ hholds.itemLocked).trans hrow,
      fun hc => h.hasRoom hholds (hroom hc),
      fun hr hreserved => hfree hr (h.reserved _ hholds.itemLocked hreserved)⟩
  | picked item log now capacity versions =>
    rw [hp] at hb
    obtain ⟨hholds, hroom, hnone, hv⟩ := hb
    exact ⟨h.holds hholds, fun hc => h.hasRoom hholds (hroom hc), hnone, h.schedules hv⟩
  | collapsed item log versions =>
    rw [hp] at hb
    obtain ⟨hholds, hroom, hv⟩ := hb
    exact ⟨h.holds hholds, fun hne => h.hasRoom hholds (hroom hne), h.schedules hv⟩
  | airing item =>
    rw [hp] at hb
    exact ⟨h.owner _ hb.1, (h.item _ hb.1).trans hb.2⟩
  | reconciling pass state rows =>
    rw [hp] at hb
    intro hpass x hx item hitem htrack
    obtain ⟨i, track, hlogItem, hwants, haired⟩ := hb hpass x hx item hitem htrack
    exact ⟨i, track, hlogItem, hwants, h.airings haired⟩

end Frame

theorem Frame.trans {b : α} {s t u : State α} (h : Frame b s t) (h' : Frame b t u) :
    Frame b s u where
  place := h'.place.trans h.place
  owner row hrow := h'.owner row (h.owner row hrow)
  logs i := (h'.logs i).trans (h.logs i)
  item i hi := (h'.item i (h.owner _ hi)).trans (h.item i hi)
  request r hr hlocked := h'.request r (h.request r hr hlocked) (h.owner _ hlocked)
  reserved i hi hreserved := h.reserved i hi (h'.reserved i (h.owner _ hi) hreserved)
  carriers log hlog := Finset.Subset.trans (h'.carriers log (h.owner _ hlog)) (h.carriers log hlog)
  airings := List.Subset.trans h.airings h'.airings

/-- A step of the worker, or of nobody. -/
structure Steps (station : Station) (worker : Option α) (s s' : State α) : Prop where
  db : DbSound station s'.db
  place : ∀ a, worker = some a → PlaceSound station s'.toShared a (s'.place a)
  frame : ∀ b, worker ≠ some b → Frame b s s'
  keeps : Keeps s.db s'.db

theorem Steps.sound {worker : Option α} {s s' : State α} (h : Steps station worker s s')
    (hs : Sound station s) : Sound station s' where
  db := h.db
  place b := by
    by_cases hb : worker = some b
    · exact h.place b hb
    · exact (h.frame b hb).placeSound (hs.place b)

theorem Frame.refl (b : α) (s : State α) : Frame b s s :=
  ⟨rfl, fun _ h => h, fun _ => rfl, fun _ _ => rfl, fun _ hr _ => hr, fun _ _ h => h,
    fun _ _ => Finset.Subset.refl _, List.Subset.refl _⟩

theorem Steps.refl {s : State α} (hs : Sound station s) (worker : Option α) :
    Steps station worker s s :=
  ⟨hs.db, fun a _ => hs.place a, fun b _ => .refl b s, .refl s.db⟩

theorem Holds.lock {s : State α} {a : α} {item : LogItem} {log : ℕ}
    (h : Holds s.toShared a item log) :
    Holds (s.lock a rows).toShared a item log :=
  { h with
    logLocked := RowLocks.owner_lock_of_owner h.logLocked
    itemLocked := RowLocks.owner_lock_of_owner h.itemLocked }

theorem Schedules.lock {s : State α} {a : α} {item : LogItem}

    (h : Schedules s.toShared a item versions) :
    Schedules (s.lock a rows).toShared a item versions := by
  intro v hv
  obtain ⟨hstatus, hitem, htrack, howner, hrow⟩ := h v hv
  exact ⟨hstatus, hitem, htrack, RowLocks.owner_lock_of_owner howner, hrow⟩

end IsadoraAir.WebRequests

/-!
## The commit of a scheduling transaction

The item gets its track and the locked requests their new versions at once.
-/

namespace IsadoraAir.WebRequests

variable {db : Database} {r : SongRequest} {i : ℕ}

variable {α : Type} {station : Station} {a b : α} {s : State α} {item : LogItem} {log : ℕ}
  {versions : List SongRequest}

theorem overlay_cases (versions : List SongRequest) (r : SongRequest) :
    Database.overlay versions r = r ∨ Database.overlay versions r ∈ versions := by
  unfold Database.overlay
  cases h : versions.find? fun v => v.id = r.id with
  | none => exact .inl rfl
  | some v => exact .inr (List.mem_of_find?_eq_some h)

theorem saveTrack_items_of_ne {item : LogItem} (h : i ≠ item.id) :
    (saveTrack db item).items i = db.items i :=
  Function.update_of_ne h ..

theorem saveTrack_items_self (db : Database) (item : LogItem) :
    (saveTrack db item).items item.id = (db.items item.id).map fun row =>
      { row with
        track := item.track, trackTitle := item.trackTitle, trackArtist := item.trackArtist } :=
  Function.update_self ..

theorem saveTrack_logs (db : Database) (item : LogItem) (i : ℕ) :
    ((saveTrack db item).items i).map LogItem.playlistLog =
      (db.items i).map LogItem.playlistLog := by
  by_cases h : i = item.id
  · subst h
    rw [saveTrack_items_self, Option.map_map]
    rfl
  · rw [saveTrack_items_of_ne h]

theorem mem_writeVersions {versions : List SongRequest} {r' : SongRequest} :
    r' ∈ (db.writeVersions versions).requests.items ↔
      ∃ r ∈ db.requests.items, Database.overlay versions r = r' := by
  simp [Database.writeVersions]


/-- What carries a request afterwards carried one before, or is the item of the new versions. -/
theorem commit_carriers (hholds : Holds s.toShared a item log)
    (hv : Schedules s.toShared a item versions) {log' : ℕ}
    (h : i ∈ ((saveTrack s.db item).writeVersions versions).carriers log') :
    i ∈ s.db.carriers log' ∨ versions ≠ [] ∧ i = item.id ∧ log' = log := by
  obtain ⟨⟨r', hr', hcarries, hitem⟩, hlog⟩ := Database.mem_carriers.mp h
  obtain ⟨r, hr, rfl⟩ := mem_writeVersions.mp hr'
  have hlog' := (saveTrack_logs s.db item i).symm.trans hlog
  rcases overlay_cases versions r with hsame | hversion
  · rw [hsame] at hcarries hitem
    exact .inl (Database.mem_carriers.mpr ⟨⟨r, hr, hcarries, hitem⟩, hlog'⟩)
  · obtain ⟨-, hitem', -⟩ := hv _ hversion
    rw [hitem'] at hitem
    obtain rfl := Option.some.inj hitem
    obtain ⟨row, hrow, hrowLog, -⟩ := hholds.row
    rw [hrow, Option.map_some, hrowLog] at hlog'
    exact .inr ⟨List.ne_nil_of_mem hversion, rfl, (Option.some.inj hlog').symm⟩

theorem commit_reserved (hv : Schedules s.toShared a item versions)
    (h : ((saveTrack s.db item).writeVersions versions).Reserved i) :
    s.db.Reserved i ∨ i = item.id := by
  obtain ⟨r', hr', hstatus, hitem⟩ := h
  obtain ⟨r, hr, rfl⟩ := mem_writeVersions.mp hr'
  rcases overlay_cases versions r with hsame | hversion
  · rw [hsame] at hstatus hitem
    exact .inl ⟨r, hr, hstatus, hitem⟩
  · rw [(hv _ hversion).2.1] at hitem
    exact .inr (Option.some.inj hitem).symm

theorem commit_dbSound (hs : DbSound station s.db) (hholds : Holds s.toShared a item log)
    (hroom : versions ≠ [] → HasRoom station s.db log item.id)
    (hv : Schedules s.toShared a item versions) :
    DbSound station ((saveTrack s.db item).writeVersions versions) where
  capacity := by
    intro log'
    by_cases hnew : versions ≠ [] ∧ log' = log
    · obtain ⟨hne, rfl⟩ := hnew
      refine (Finset.card_le_card ?_).trans (hroom hne)
      intro i hi
      rcases commit_carriers hholds hv hi with hold | ⟨-, rfl, -⟩
      · exact Finset.mem_insert_of_mem hold
      · exact Finset.mem_insert_self ..
    · refine (Finset.card_le_card ?_).trans (hs.capacity log')
      intro i hi
      rcases commit_carriers hholds hv hi with hold | ⟨hne, -, hlog⟩
      · exact hold
      · exact absurd ⟨hne, hlog⟩ hnew
  item_id := by
    intro i it hit
    by_cases h : i = item.id
    · subst h
      obtain ⟨row, hrow, rfl⟩ := Option.map_eq_some_iff.mp
        ((saveTrack_items_self s.db item).symm.trans hit)
      exact hs.item_id _ row hrow
    · exact hs.item_id i it ((saveTrack_items_of_ne h).symm.trans hit)
  aired := by
    intro i it track hit hplayed htrack
    by_cases h : i = item.id
    · subst h
      obtain ⟨row, hrow, rfl⟩ := Option.map_eq_some_iff.mp
        ((saveTrack_items_self s.db item).symm.trans hit)
      obtain ⟨row', hrow', -, hunplayed, -⟩ := hholds.row
      cases hrow.symm.trans hrow'
      exact absurd hunplayed hplayed
    · exact hs.aired i it track ((saveTrack_items_of_ne h).symm.trans hit) hplayed htrack
  tracked := by
    intro r' hr' hstatus
    obtain ⟨r, hr, rfl⟩ := mem_writeVersions.mp hr'
    rcases overlay_cases versions r with hsame | hversion
    · rw [hsame] at hstatus ⊢
      exact hs.tracked r hr hstatus
    · rw [(hv _ hversion).2.2.1]
      exact hholds.hasTrack

theorem overlay_locked (hv : Schedules s.toShared a item versions)
    (h : Database.overlay versions r ≠ r) : s.locks.owner (.request r.id) = some a := by
  rcases overlay_cases versions r with hsame | hversion
  · exact absurd hsame h
  · rw [← Database.overlay_id versions r]
    exact (hv _ hversion).2.2.2.1

theorem commit_frame (hholds : Holds s.toShared a item log)
    (hv : Schedules s.toShared a item versions) (hb : b ≠ a) :
    Frame b s { s with db := (saveTrack s.db item).writeVersions versions } where
  place := rfl
  owner _ h := h
  logs := saveTrack_logs s.db item
  item := by
    intro i hi
    refine saveTrack_items_of_ne ?_
    rintro rfl
    rw [hholds.itemLocked] at hi
    exact hb (Option.some.inj hi).symm
  request := by
    intro r hr hlocked
    refine mem_writeVersions.mpr ⟨r, hr, ?_⟩
    by_contra hchanged
    rw [overlay_locked hv hchanged] at hlocked
    exact hb (Option.some.inj hlocked).symm
  reserved := by
    intro i hi hreserved
    rcases commit_reserved hv hreserved with hold | rfl
    · exact hold
    · rw [hholds.itemLocked] at hi
      exact absurd (Option.some.inj hi).symm hb
  carriers := by
    intro log' hlog' i hi
    rcases commit_carriers hholds hv hi with hold | ⟨-, -, rfl⟩
    · exact hold
    · rw [hholds.logLocked] at hlog'
      exact absurd (Option.some.inj hlog').symm hb
  airings := List.Subset.refl _

theorem commit_evolves (hv : Schedules s.toShared a item versions)
    (hr : r ∈ s.db.requests.items) (airings : List (ℕ × ℕ)) :
    Evolves airings r (Database.overlay versions r) := by
  rcases overlay_cases versions r with hsame | hversion
  · rw [hsame]
    exact .refl _ r
  · obtain ⟨hstatus, -, -, -, r₀, hr₀, hid, hwaiting, htrack⟩ := hv _ hversion
    have hrow : r₀ = r := Distinct.eq_of_key hr₀ hr (hid.trans (Database.overlay_id versions r))
    subst hrow
    refine ⟨Database.overlay_id versions r₀, htrack.symm, ?_, ?_⟩
    · intro hterminal
      cases hcase : r₀.status <;> simp [hcase, Status.isWaiting, Status.isTerminal] at *
    · intro hfulfilled
      rw [hstatus] at hfulfilled
      cases hfulfilled

theorem commit_keeps (hholds : Holds s.toShared a item log)
    (hv : Schedules s.toShared a item versions) :
    Keeps s.db ((saveTrack s.db item).writeVersions versions) where
  requests := by
    intro r hr
    exact ⟨_, mem_writeVersions.mpr ⟨r, hr, rfl⟩, commit_evolves hv hr _⟩
  origin := by
    intro r' hr'
    obtain ⟨r, hr, rfl⟩ := mem_writeVersions.mp hr'
    exact .inl ⟨r, hr, commit_evolves hv hr _⟩
  track := by
    intro i hreserved
    by_cases h : i = item.id
    · subst h
      obtain ⟨row, hrow, -, -, hfree⟩ := hholds.row
      have hsame : item.track = row.track := by
        by_contra hne
        exact hfree hne hreserved
      change ((saveTrack s.db item).items item.id).map LogItem.track = _
      rw [saveTrack_items_self, hrow]
      simp [hsame]
    · exact congrArg (Option.map LogItem.track) (saveTrack_items_of_ne h)

end IsadoraAir.WebRequests
