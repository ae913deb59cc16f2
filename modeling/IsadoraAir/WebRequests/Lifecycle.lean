import IsadoraAir.WebRequests.Invariant

/-!
# The life of a song request

Every statement of every worker keeps the invariant. The capacity of a log, the
order of a request's statuses and the track of a reserved item follow for every
run.
-/

namespace IsadoraAir.WebRequests

open Runs

variable {db : Database} {airings : List (ℕ × ℕ)} {r : SongRequest}

variable {α : Type} [DecidableEq α] {station : Station} {a b : α} {s t : State α} {p : Place}
  {rows : Row → Bool}

theorem moveTo_place_self (s : State α) (a : α) (p : Place) : (s.moveTo a p).place a = p :=
  Function.update_self ..

theorem moveTo_place_of_ne (s : State α) (p : Place) (h : b ≠ a) :
    (s.moveTo a p).place b = s.place b :=
  Function.update_of_ne h ..

theorem finish_place_self (s : State α) (a : α) : (s.finish a).place a = .idle :=
  Function.update_self ..

theorem Frame.moveTo (h : Frame b s t) (hb : b ≠ a) : Frame b s (t.moveTo a p) :=
  { h with place := (moveTo_place_of_ne t p hb).trans h.place }

theorem Frame.lock (h : Frame b s t) (hb : b ≠ a)
    (hrows : ∀ row, rows row → t.locks.available a row) : Frame b s (t.lock a rows) :=
  { h with owner := fun row hrow => RowLocks.owner_lock_of_ne hrows hb (h.owner row hrow) }

theorem Frame.finish (h : Frame b s t) (hb : b ≠ a) : Frame b s (t.finish a) :=
  { h with
    place := (moveTo_place_of_ne _ .idle hb).trans h.place
    owner := fun row hrow => RowLocks.owner_release_of_ne hb (h.owner row hrow) }

/-- A worker goes on to its next place. -/
theorem Steps.moveTo (hs : Sound station s) (hp : PlaceSound station s.toShared a p) :
    Steps station (some a) s (s.moveTo a p) where
  db := hs.db
  place := by
    rintro _ ⟨rfl⟩
    rw [moveTo_place_self]
    exact hp
  frame := by
    intro b hb
    exact (Frame.refl b s).moveTo fun h => hb (congrArg some h.symm)
  keeps := .refl s.db

/-- A worker takes rows that are available to it and goes on. -/
theorem Steps.lock (hs : Sound station s) (hrows : ∀ row, rows row → s.locks.available a row)
    (hp : PlaceSound station (s.lock a rows).toShared a p) :
    Steps station (some a) s ((s.lock a rows).moveTo a p) where
  db := hs.db
  place := by
    rintro _ ⟨rfl⟩
    rw [moveTo_place_self]
    exact hp
  frame := by
    intro b hb
    have hne : b ≠ a := fun h => hb (congrArg some h.symm)
    exact ((Frame.refl b s).lock hne hrows).moveTo hne
  keeps := .refl s.db

theorem Steps.finish (hs : Sound station s) : Steps station (some a) s (s.finish a) where
  db := hs.db
  place := by
    rintro _ ⟨rfl⟩
    rw [finish_place_self]
    trivial
  frame := by
    intro b hb
    exact (Frame.refl b s).finish fun h => hb (congrArg some h.symm)
  keeps := .refl s.db

/-! ## The scheduling transaction -/

theorem beginScheduling_steps (hs : Sound station s) (item : ℕ) (callerTrack : Option ℕ)
    (callerKind : Option String) (now : ℤ) :
    Steps station (some a) s (beginScheduling station a item callerTrack callerKind now s) := by
  unfold beginScheduling
  split
  · next row hplace hrow =>
    split_ifs with hcond
    · obtain ⟨-, -, -, -, havailable⟩ := hcond
      refine .lock hs ?_ ⟨RowLocks.owner_lock_of_mem (by simp), ?_⟩
      · intro r hr
        obtain rfl : r = .log row.playlistLog := by simpa using hr
        exact havailable
      · simp [State.lock, hrow]
    · exact .refl hs _
  · exact .refl hs _

theorem lockItem_steps (hs : Sound station s) :
    Steps station (some a) s (lockItem station a s) := by
  unfold lockItem
  cases hp : s.place a with
  | lockedLog itemId log now =>
    have hplace := hs.place a
    rw [hp] at hplace
    obtain ⟨hlog, hitemLog⟩ := hplace
    cases hrow : s.db.items itemId with
    | none =>
      simp only [hrow]
      exact .finish hs
    | some item =>
      simp only [hrow]
      have hid := hs.db.item_id itemId item hrow
      split_ifs with havailable hschedulable
      · simp only [isSchedulable, decide_eq_true_eq] at hschedulable
        obtain ⟨hplayed, -, htrack, -⟩ := hschedulable
        rw [hrow] at hitemLog
        rw [← hid] at hrow
        apply Steps.lock hs
        · intro r hr
          obtain rfl : r = .item itemId := by simpa using hr
          exact havailable
        · refine ⟨⟨?_, ?_, htrack, item, hrow, Option.some.inj hitemLog, hplayed, ?_⟩, hrow⟩
          · exact RowLocks.owner_lock_of_owner hlog
          · exact RowLocks.owner_lock_of_mem (by simp [hid])
          · intro hne
            exact absurd rfl hne
      · exact .finish hs
      · exact .refl hs _
  | _ => exact .refl hs _

theorem askReserved_steps (hs : Sound station s) : Steps station (some a) s (askReserved a s) := by
  unfold askReserved
  cases hp : s.place a with
  | lockedItem item log now =>
    have hplace := hs.place a
    rw [hp] at hplace
    obtain ⟨hholds, hrow⟩ := hplace
    refine .moveTo hs ⟨hholds, hrow, ?_, ?_⟩
    · intro hreserved
      obtain ⟨r, hr, hstatus, hitem⟩ := Database.isReserved_iff.mp hreserved
      obtain ⟨row, hrow', hlog, -⟩ := hholds.row
      have hmem : item.id ∈ s.db.carriers log :=
        Database.mem_carriers.mpr ⟨⟨r, hr, .inl hstatus, hitem⟩, by simp [hrow', hlog]⟩
      unfold HasRoom
      rw [Finset.insert_eq_of_mem hmem]
      exact hs.db.capacity log
    · intro hfree hreserved
      rw [Database.isReserved_iff.mpr hreserved] at hfree
      cases hfree
  | _ => exact .refl hs _

theorem countUsed_steps (hs : Sound station s) :
    Steps station (some a) s (countUsed station a s) := by
  unfold countUsed
  cases hp : s.place a with
  | asked item log now reserved =>
    have hplace := hs.place a
    rw [hp] at hplace
    obtain ⟨hholds, hrow, hroom, hfree⟩ := hplace
    refine .moveTo hs ⟨hholds, hrow, ?_, hfree⟩
    intro hcapacity
    rcases Bool.or_eq_true_iff.mp hcapacity with hreserved | hused
    · exact hroom hreserved
    · rw [decide_eq_true_eq, Database.usedSlots_eq] at hused
      exact (Finset.card_insert_le _ _).trans hused
  | _ => exact .refl hs _

theorem mem_candidates :
    r ∈ candidates a s ↔ r ∈ s.db.requests.items ∧ r.status.isWaiting ∧ r.track ≠ none ∧
      s.locks.available a (.request r.id) := by
  simp [candidates]

theorem isRequestIn_iff {rows : List SongRequest} {row : Row} :
    isRequestIn rows row ↔ ∃ r ∈ rows, row = .request r.id := by
  cases row <;> simp [isRequestIn, eq_comm]

theorem isRequestIn_of_mem {rows : List SongRequest} (h : r ∈ rows) :
    isRequestIn rows (.request r.id) :=
  isRequestIn_iff.mpr ⟨r, h, rfl⟩

theorem pick_steps (hs : Sound station s) (eligible : ℕ → Bool) (estimate : Option ℤ) :
    Steps station (some a) s (pick station a eligible estimate s) := by
  unfold pick
  cases hp : s.place a with
  | counted item log now capacity reserved =>
    have hplace := hs.place a
    rw [hp] at hplace
    obtain ⟨hholds, hrow, hroom, hfree⟩ := hplace
    have hnothing : Schedules s.toShared a item [] := fun v hv => nomatch hv
    simp only
    split_ifs with hcond
    · have hlocked : ∀ row, isRequestIn (candidates a s) row → s.locks.available a row := by
        intro row h
        obtain ⟨r, hr, rfl⟩ := isRequestIn_iff.mp h
        exact (mem_candidates.mp hr).2.2.2
      cases hfind : (candidates a s).find? fun r => r.track.any eligible with
      | none => exact .lock hs hlocked ⟨hholds.lock, hroom, fun _ => rfl, hnothing.lock⟩
      | some candidate =>
        have hmem := List.mem_of_find?_eq_some hfind
        obtain ⟨hrequest, hwaiting, htrack, -⟩ := mem_candidates.mp hmem
        obtain ⟨row, hrow', hlog, hplayed, -⟩ := hholds.row
        have hunreserved : ¬s.db.Reserved item.id := hfree (by simpa using hcond.2)
        apply Steps.lock hs hlocked
        refine ⟨⟨?_, ?_, htrack, row, hrow', hlog, hplayed, fun _ => hunreserved⟩, hroom, ?_, ?_⟩
        · exact RowLocks.owner_lock_of_owner hholds.logLocked
        · exact RowLocks.owner_lock_of_owner hholds.itemLocked
        · intro hno
          rw [hcond.1] at hno
          cases hno
        · intro v hv
          obtain rfl := List.mem_singleton.mp hv
          have howner : (s.lock a (isRequestIn (candidates a s))).locks.owner
              (.request candidate.id) = some a :=
            RowLocks.owner_lock_of_mem (isRequestIn_of_mem hmem)
          exact ⟨rfl, rfl, rfl, howner, candidate, hrequest, rfl, hwaiting, rfl⟩
    · exact .moveTo hs ⟨hholds, hroom, fun _ => rfl, hnothing⟩
  | _ => exact .refl hs _

theorem collapse_steps (hs : Sound station s) (estimate : Option ℤ) :
    Steps station (some a) s (collapse a estimate s) := by
  unfold collapse
  cases hp : s.place a with
  | picked item log now capacity versions =>
    have hplace := hs.place a
    rw [hp] at hplace
    obtain ⟨hholds, hroom, hnone, hschedules⟩ := hplace
    simp only
    split_ifs with hcapacity
    · apply Steps.lock hs
      · intro row h
        obtain ⟨r, hr, rfl⟩ := isRequestIn_iff.mp h
        have hcond := List.of_mem_filter hr
        simp only [decide_eq_true_eq] at hcond
        exact hcond.2.2
      · refine ⟨hholds.lock, fun _ => hroom hcapacity, ?_⟩
        intro v hv
        rcases List.mem_append.mp hv with hold | hnew
        · exact hschedules.lock v hold
        obtain ⟨r, hr, rfl⟩ := List.mem_map.mp hnew
        obtain ⟨hmap, hcond⟩ := List.mem_filter.mp hr
        simp only [decide_eq_true_eq] at hcond
        obtain ⟨hwaiting, htrack, -⟩ := hcond
        obtain ⟨r₀, hr₀, hoverlay⟩ := List.mem_map.mp hmap
        have hsame : r₀ = r := by
          rcases overlay_cases versions r₀ with hsame | hversion
          · exact hsame.symm.trans hoverlay
          · rw [hoverlay] at hversion
            rw [(hschedules r hversion).1] at hwaiting
            cases hwaiting
        subst hsame
        have howner : (s.lock a (isRequestIn (collapsible a item.track versions s))).locks.owner
            (.request r₀.id) = some a :=
          RowLocks.owner_lock_of_mem (isRequestIn_of_mem hr)
        exact ⟨rfl, rfl, htrack, howner, r₀, hr₀, rfl, hwaiting, rfl⟩
    · have hempty := hnone (by simpa using hcapacity)
      exact .moveTo hs ⟨hholds, fun hne => absurd hempty hne, hschedules⟩
  | _ => exact .refl hs _

theorem commit_steps (hs : Sound station s) : Steps station (some a) s (commit a s) := by
  unfold commit
  cases hp : s.place a with
  | collapsed item log versions =>
    have hplace := hs.place a
    rw [hp] at hplace
    obtain ⟨hholds, hroom, hv⟩ := hplace
    refine ⟨commit_dbSound hs.db hholds hroom hv, ?_, ?_, commit_keeps hholds hv⟩
    · rintro _ ⟨rfl⟩
      rw [finish_place_self]
      trivial
    · intro b hb
      have hne : b ≠ a := fun h => hb (congrArg some h.symm)
      exact (commit_frame hholds hv hne).finish hne
  | _ => exact .refl hs _

/-! ## The reconciler -/

theorem beginPass_steps (hs : Sound station s) (pass : Pass) (state : Option EngineState) :
    Steps station (some a) s (beginPass a pass state s) := by
  unfold beginPass
  cases hp : s.place a with
  | idle =>
    apply Steps.moveTo hs
    intro hpass x hx item hitem htrack
    subst hpass
    obtain ⟨hmap, hselected⟩ := List.mem_filter.mp hx
    obtain ⟨r, hr, rfl⟩ := List.mem_map.mp hmap
    simp only [isSelected, decide_eq_true_eq] at hselected
    obtain ⟨hscheduled, hplayed⟩ := hselected
    obtain ⟨i, hlogItem, hrow⟩ := Option.bind_eq_some_iff.mp hitem
    obtain ⟨track, hwants⟩ := Option.ne_none_iff_exists'.mp (hs.db.tracked r hr hscheduled)
    have hplayedAt : item.playedAt ≠ none := by
      rw [hitem] at hplayed
      simpa using hplayed
    exact ⟨i, track, hlogItem, hwants,
      hs.db.aired i item track hrow hplayedAt (htrack.trans hwants)⟩
  | _ => exact .refl hs _

omit [DecidableEq α] in
theorem evolves_of_live {r' : SongRequest} (hid : r'.id = r.id)
    (htrack : r'.track = r.track) (hlive : ¬r.status.isTerminal) (hnot : r'.status ≠ .fulfilled) :
    Evolves airings r r' :=
  ⟨hid, htrack, fun h => absurd h hlive, fun h => absurd h hnot⟩

omit [DecidableEq α] in
theorem live_of_scheduled (h : r.status = .scheduled) : ¬r.status.isTerminal := by
  simp [h, Status.isTerminal]

omit [DecidableEq α] in
theorem live_of_waiting (h : r.status.isWaiting) : ¬r.status.isTerminal := by
  cases hcase : r.status <;> simp_all [Status.isWaiting, Status.isTerminal]

omit [DecidableEq α] in
theorem fulfil_spec {item track : ℕ} (hscheduled : r.status = .scheduled)
    (hitem : r.logItem = some item) (htrack : r.track = some track)
    (haired : (item, track) ∈ airings) (playedAt : Option ℤ) (now : ℤ) :
    r.Yields ((fulfil playedAt now).apply r) ∧
      Evolves airings r ((fulfil playedAt now).apply r) := by
  refine ⟨⟨?_, ?_⟩, rfl, rfl, fun h => absurd h (live_of_scheduled hscheduled), ?_⟩
  · rintro i ⟨-, hi⟩
    exact ⟨.inl hscheduled, hi⟩
  · intro h
    cases h
  · intro _
    exact .inr ⟨hscheduled, item, track, hitem, htrack, haired⟩

omit [DecidableEq α] in
/-- A request that is taken off its item, or that a waiting request becomes. -/
theorem released_spec {r' : SongRequest} (hid : r'.id = r.id)
    (htrack : r'.track = r.track) (hlive : ¬r.status.isTerminal) (hs : r'.status ≠ .scheduled)
    (hf : r'.status ≠ .fulfilled) : r.Yields r' ∧ Evolves airings r r' :=
  ⟨SongRequest.yields_of_idle hs hf, evolves_of_live hid htrack hlive hf⟩

omit [DecidableEq α] in
theorem reestimate_spec (h : r.status = .scheduled) (estimate : Option ℤ) (now : ℤ) :
    r.Yields ((reestimate estimate now).apply r) ∧
      Evolves airings r ((reestimate estimate now).apply r) := by
  refine ⟨⟨fun _ hcarries => hcarries, fun _ => ⟨h, rfl⟩⟩,
    evolves_of_live rfl rfl (live_of_scheduled h) ?_⟩
  intro hfulfilled
  cases h.symm.trans hfulfilled

omit [DecidableEq α] in
/-- The compare-and-set of a pass acts on the row that was read, as far as it still is what it
was, and credits only what was aired. -/
theorem verdict_spec {pass : Pass} {state : Option EngineState}
    {x : Reading} {now : ℤ} {available : Bool} {estimate : Option ℤ}
    {condition : SongRequest → Bool} {assignment : Assignment}
    (hx : pass = .aired → ∀ item, x.item = some item → item.track = x.request.track →
      ∃ i track, x.request.logItem = some i ∧ x.request.track = some track ∧ (i, track) ∈ airings)
    (h : verdict station pass state x now available estimate = some (condition, assignment))
    (r : SongRequest) (hr : condition r) :
    r.id = x.request.id ∧ r.Yields (assignment.apply r) ∧
      Evolves airings r (assignment.apply r) := by
  have hscheduled : isStillScheduled x.request r → r.id = x.request.id ∧ r.status = .scheduled ∧
      r.logItem = x.request.logItem := by simp [isStillScheduled]
  have hwaiting : isStillWaiting x.request r → r.id = x.request.id ∧ r.status.isWaiting := by
    simp [isStillWaiting]
  cases pass with
  | aired =>
    simp only [verdict] at h
    cases hitem : x.item with
    | none =>
      rw [hitem] at h
      cases h
    | some item =>
      simp only [hitem] at h
      split_ifs at h with hsame
      · cases h
        simp only [decide_eq_true_eq] at hr
        obtain ⟨hid, hstatus, hlogItem⟩ := hscheduled hr.1
        obtain ⟨i, track, hi, htrack, haired⟩ := hx rfl item hitem hsame
        exact ⟨hid, fulfil_spec hstatus (hlogItem.trans hi) (hr.2.trans htrack) haired _ _⟩
      · cases h
        obtain ⟨hid, hstatus, -⟩ := hscheduled hr
        exact ⟨hid, released_spec rfl rfl (live_of_scheduled hstatus) nofun nofun⟩
  | stranded =>
    simp only [verdict] at h
    split_ifs at h
    · cases h
      obtain ⟨hid, hstatus, -⟩ := hscheduled hr
      exact ⟨hid, released_spec rfl rfl (live_of_scheduled hstatus) nofun nofun⟩
    · cases h
      obtain ⟨hid, hstatus, -⟩ := hscheduled hr
      exact ⟨hid, released_spec rfl rfl (live_of_scheduled hstatus) nofun nofun⟩
  | estimates =>
    simp only [verdict] at h
    split_ifs at h
    cases h
    obtain ⟨hid, hstatus, -⟩ := hscheduled hr
    exact ⟨hid, reestimate_spec hstatus _ _⟩
  | ageing =>
    simp only [verdict] at h
    split_ifs at h
    · cases h
      obtain ⟨hid, hlive⟩ := hwaiting hr
      exact ⟨hid, released_spec rfl rfl (live_of_waiting hlive) nofun nofun⟩
    · cases h
      obtain ⟨hid, hlive⟩ := hwaiting hr
      exact ⟨hid, released_spec rfl rfl (live_of_waiting hlive) nofun nofun⟩
  | advisory =>
    simp only [verdict] at h
    split_ifs at h with hestimate
    · cases h
      obtain ⟨hid, hlive⟩ := hwaiting hr
      exact ⟨hid, released_spec rfl rfl (live_of_waiting hlive) nofun nofun⟩
    · cases h
      obtain ⟨hid, hlive⟩ := hwaiting hr
      exact ⟨hid, released_spec rfl rfl (live_of_waiting hlive) nofun nofun⟩

theorem resolve_steps (hs : Sound station s) (now : ℤ) (available : Bool) (estimate : Option ℤ) :
    Steps station (some a) s (resolve station a now available estimate s) := by
  unfold resolve
  cases hp : s.place a with
  | reconciling pass state rows =>
    have hplace := hs.place a
    rw [hp] at hplace
    cases rows with
    | nil => exact .moveTo hs trivial
    | cons x rows =>
      have hrest : PlaceSound station s.toShared a (.reconciling pass state rows) :=
        fun hpass y hy => hplace hpass y (List.mem_cons_of_mem _ hy)
      simp only
      split_ifs with hfree
      · cases hverdict : verdict station pass state x now available estimate with
        | none => exact .moveTo hs hrest
        | some update =>
          obtain ⟨condition, assignment⟩ := update
          have hspec := verdict_spec (fun hpass => hplace hpass x List.mem_cons_self) hverdict
          have hy : s.db.Yields (s.db.update condition assignment) :=
            Database.yields_update fun r _ hr => ⟨(hspec r hr).2.1, (hspec r hr).2.2.track⟩
          refine ⟨hs.db.of_yields hy rfl rfl, ?_, ?_, .update fun r _ hr => (hspec r hr).2.2⟩
          · rintro _ ⟨rfl⟩
            rw [moveTo_place_self]
            exact hrest
          · intro b hb
            refine (Frame.update hy ?_).moveTo fun h => hb (congrArg some h.symm)
            intro r _ hr
            rw [(hspec r hr).1, hfree]
            nofun
      · exact .refl hs _
  | _ => exact .refl hs _

/-! ## The engine -/

theorem lockAiring_steps (hs : Sound station s) (itemId : ℕ) :
    Steps station (some a) s (lockAiring a itemId s) := by
  unfold lockAiring
  split
  · next item hplace hrow =>
    split_ifs with havailable
    · have hid := hs.db.item_id itemId item hrow
      apply Steps.lock hs
      · intro row h
        obtain rfl : row = .item itemId := by simpa using h
        exact havailable
      · exact ⟨RowLocks.owner_lock_of_mem (by simp [hid]), by rw [hid]; exact hrow⟩
    · exact .refl hs _
  · exact .refl hs _

section AirStart

variable {item : LogItem} {track : ℕ} {airedAt : ℤ}

omit [DecidableEq α] in
/-- A changed item is sound with whatever the engine has put on record of it. -/
theorem DbSound.put (hs : DbSound station db) (item' : LogItem)
    (hrow : db.items item.id = some item) (hid : item'.id = item.id)
    (hlog : item'.playlistLog = item.playlistLog) (hkeep : db.airings ⊆ airings)
    (haired : item'.playedAt ≠ none → ∀ t, item'.track = some t → (item.id, t) ∈ airings) :
    DbSound station { db.put item' with airings := airings } where
  capacity log :=
    (Finset.card_le_card (put_carriers item' hrow hid hlog log)).trans (hs.capacity log)
  item_id := by
    intro i it hit
    rcases put_items item' hrow hid i with hsame | ⟨rfl, -, hnew⟩
    · exact hs.item_id i it (hsame.symm.trans hit)
    · cases hnew.symm.trans hit
      exact hid
  aired := by
    intro i it t hit hplayed ht
    rcases put_items item' hrow hid i with hsame | ⟨rfl, -, hnew⟩
    · exact hkeep (hs.aired i it t (hsame.symm.trans hit) hplayed ht)
    · cases hnew.symm.trans hit
      exact haired hplayed t ht
  tracked := hs.tracked

omit [DecidableEq α] in
theorem withAiring_dbSound (hs : DbSound station db)
    (hrow : db.items item.id = some item) (htrack : item.track = some track) :
    DbSound station (withAiring db item track airedAt) := by
  apply hs.put { item with playedAt := some airedAt } hrow rfl rfl (List.subset_cons_self ..)
  intro _ t ht
  cases htrack.symm.trans ht
  exact List.mem_cons_self

omit [DecidableEq α] in
theorem withAiring_frame (hlocked : s.locks.owner (.item item.id) = some a)
    (hrow : s.db.items item.id = some item) (hb : b ≠ a) :
    Frame b s { s with db := withAiring s.db item track airedAt } := by
  have hfree : s.locks.owner (.item item.id) ≠ some b := by
    rw [hlocked]
    intro h
    exact hb (Option.some.inj h).symm
  have hput : Frame b s { s with db := s.db.put { item with playedAt := some airedAt } } :=
    put_frame { item with playedAt := some airedAt } hrow rfl rfl hfree
  exact { hput with airings := List.subset_cons_self .. }

theorem recordAirStart_steps (hs : Sound station s) (deckTrack : ℕ) (airedAt : ℤ) :
    Steps station (some a) s (recordAirStart a deckTrack airedAt s) := by
  unfold recordAirStart
  cases hp : s.place a with
  | airing item =>
    have hplace := hs.place a
    rw [hp] at hplace
    obtain ⟨hlocked, hrow⟩ := hplace
    simp only
    split_ifs with hrefused hfree
    · exact .finish hs
    · have htrack : item.track = some deckTrack := by
        by_contra hne
        exact hrefused (.inr (.inl hne))
      have hcredit : ∀ r ∈ s.db.requests.items, isAiredBy item r →
          r.Yields ((fulfil (some airedAt) airedAt).apply r) ∧
            Evolves ((item.id, deckTrack) :: s.db.airings) r
              ((fulfil (some airedAt) airedAt).apply r) := by
        intro r _ hr
        simp only [isAiredBy, decide_eq_true_eq] at hr
        exact fulfil_spec hr.1 hr.2.1 (hr.2.2.trans htrack) List.mem_cons_self _ _
      have hy : (withAiring s.db item deckTrack airedAt).Yields
          (markSongRequestsAired (withAiring s.db item deckTrack airedAt) item airedAt) :=
        Database.yields_update fun r hr hcond =>
          ⟨(hcredit r hr hcond).1, (hcredit r hr hcond).2.track⟩
      have hkeeps : Keeps (withAiring s.db item deckTrack airedAt)
          (markSongRequestsAired (withAiring s.db item deckTrack airedAt) item airedAt) :=
        .update fun r hr hcond => (hcredit r hr hcond).2
      refine ⟨(withAiring_dbSound hs.db hrow htrack).of_yields hy rfl rfl, ?_, ?_,
        hkeeps.requests, hkeeps.origin, ?_⟩
      · rintro _ ⟨rfl⟩
        rw [finish_place_self]
        trivial
      · intro b hb
        have hne : b ≠ a := fun h => hb (congrArg some h.symm)
        have hrecord : Frame b s { s with db := withAiring s.db item deckTrack airedAt } :=
          withAiring_frame hlocked hrow hne
        refine (hrecord.trans (Frame.update hy ?_)).finish hne
        intro r hr hcond
        have havailable := List.all_eq_true.mp hfree r hr
        rw [hcond, Bool.not_true, Bool.false_or] at havailable
        exact RowLocks.ne_of_available havailable hne
      · intro i _
        exact put_map { item with playedAt := some airedAt } hrow rfl rfl i
    · exact .refl hs _
  | _ => exact .refl hs _

end AirStart

omit [DecidableEq α] in
theorem claimPlayback_steps (hs : Sound station s) (itemId : ℕ) (now : ℤ) :
    Steps station none s (claimPlayback itemId now s) := by
  unfold claimPlayback
  cases hrow : s.db.items itemId with
  | none => exact .refl hs _
  | some item =>
    simp only
    split_ifs with hcond
    · obtain ⟨hunlocked, -⟩ := hcond
      have hid := hs.db.item_id itemId item hrow
      subst hid
      refine ⟨?_, nofun, ?_,
        ⟨fun r hr => ⟨r, hr, .refl _ r⟩, fun r hr => .inl ⟨r, hr, .refl _ r⟩, ?_⟩⟩
      · exact hs.db.put { item with playbackClaimedAt := some now } hrow rfl rfl
          (List.Subset.refl _) fun hplayed track => hs.db.aired _ item track hrow hplayed
      · intro b _
        refine put_frame { item with playbackClaimedAt := some now } hrow rfl rfl ?_
        rw [hunlocked]
        nofun
      · intro i _
        exact put_map { item with playbackClaimedAt := some now } hrow rfl rfl i
    · exact .refl hs _

omit [DecidableEq α] in
theorem submit_steps (hs : Sound station s) (id : ℕ) (track : Option ℕ) (submittedAt now : ℤ) :
    Steps station none s (submit id track submittedAt now s) := by
  unfold submit
  by_cases hfresh : id ∉ s.db.requests.keys
  · rw [dif_pos hfresh]
    have hmem : ∀ r' ∈ s.db.requests.items ++ [newRequest id track submittedAt now],
        r' ∈ s.db.requests.items ∨ r'.status = .pending := by
      intro r' hr'
      rcases List.mem_append.mp hr' with hold | hnew
      · exact .inl hold
      · rw [List.mem_singleton.mp hnew]
        exact .inr rfl
    have hcarriers : ∀ log, Database.carriers { s.db with
        requests := s.db.requests.add (newRequest id track submittedAt now) hfresh } log ⊆
        s.db.carriers log := by
      intro log item hitem
      obtain ⟨⟨r, hr, hstatus, hlogItem⟩, hlog⟩ := Database.mem_carriers.mp hitem
      rcases hmem r hr with hold | hpending
      · exact Database.mem_carriers.mpr ⟨⟨r, hold, hstatus, hlogItem⟩, hlog⟩
      · simp [hpending] at hstatus
    refine ⟨⟨?_, hs.db.item_id, hs.db.aired, ?_⟩, nofun, ?_, ?_, ?_, fun _ _ => rfl⟩
    · intro log
      exact (Finset.card_le_card (hcarriers log)).trans (hs.db.capacity log)
    · intro r hr hscheduled
      rcases hmem r hr with hold | hpending
      · exact hs.db.tracked r hold hscheduled
      · cases hpending.symm.trans hscheduled
    · intro b _
      refine ⟨rfl, fun _ h => h, fun _ => rfl, fun _ _ => rfl, ?_, ?_, fun log _ => hcarriers log,
        List.Subset.refl _⟩
      · intro r hr _
        exact List.mem_append_left _ hr
      · rintro i _ ⟨r, hr, hscheduled, hlogItem⟩
        rcases hmem r hr with hold | hpending
        · exact ⟨r, hold, hscheduled, hlogItem⟩
        · cases hpending.symm.trans hscheduled
    · intro r hr
      exact ⟨r, List.mem_append_left _ hr, .refl _ r⟩
    · intro r hr
      rcases hmem r hr with hold | hpending
      · exact .inl ⟨r, hold, .refl _ r⟩
      · exact .inr hpending
  · rw [dif_neg hfresh]
    exact .refl hs _

/-! ## Runs -/

theorem step_steps (e : Event α) (hs : Sound station s) :
    Steps station e.worker s (step station e s) := by
  cases e with
  | submit id track submittedAt now => exact submit_steps hs id track submittedAt now
  | claimPlayback item now => exact claimPlayback_steps hs item now
  | beginScheduling a item callerTrack callerKind now =>
    exact beginScheduling_steps hs item callerTrack callerKind now
  | lockItem a => exact lockItem_steps hs
  | askReserved a => exact askReserved_steps hs
  | countUsed a => exact countUsed_steps hs
  | pick a eligible estimate => exact pick_steps hs eligible estimate
  | collapse a estimate => exact collapse_steps hs estimate
  | commit a => exact commit_steps hs
  | rollback a => exact .finish hs
  | lockAiring a item => exact lockAiring_steps hs item
  | recordAirStart a deckTrack airedAt => exact recordAirStart_steps hs deckTrack airedAt
  | beginPass a pass state => exact beginPass_steps hs pass state
  | resolve a now available estimate => exact resolve_steps hs now available estimate

omit [DecidableEq α] in
/-- Between transactions, on sound tables. -/
structure AtRest (station : Station) (s : State α) : Prop where
  db : DbSound station s.db
  idle : ∀ a, s.place a = .idle

omit [DecidableEq α] in
theorem AtRest.sound (h : AtRest station s) : Sound station s where
  db := h.db
  place a := by
    rw [h.idle a]
    trivial

/-- The life of the requests over one step. -/
structure Lifecycle (db db' : Database) : Prop where
  persistent : ∀ r ∈ db.requests.items, ∃ r' ∈ db'.requests.items, r'.id = r.id
  terminal : ∀ r ∈ db.requests.items, ∀ r' ∈ db'.requests.items, r'.id = r.id →
    r.status.isTerminal → r'.status = r.status
  fulfilled : ∀ r' ∈ db'.requests.items, r'.status = .fulfilled →
    ∃ r ∈ db.requests.items, r.id = r'.id ∧ (r.status = .fulfilled ∨
      r.status = .scheduled ∧ ∃ item track, r'.logItem = some item ∧ r.track = some track ∧
        r'.track = some track ∧ (item, track) ∈ db'.airings)
  track : ∀ i, db.Reserved i → (db'.items i).map LogItem.track = (db.items i).map LogItem.track

theorem Keeps.lifecycle {db' : Database} (h : Keeps db db') : Lifecycle db db' where
  persistent := by
    intro r hr
    obtain ⟨r', hr', hevolves⟩ := h.requests r hr
    exact ⟨r', hr', hevolves.id⟩
  terminal := by
    intro r hr r' hr' hid hterminal
    obtain ⟨r'', hr'', hevolves⟩ := h.requests r hr
    have hsame : r' = r'' := Distinct.eq_of_key hr' hr'' (hid.trans hevolves.id.symm)
    rw [hsame, hevolves.terminal hterminal]
  fulfilled := by
    intro r' hr' hfulfilled
    rcases h.origin r' hr' with ⟨r, hr, hevolves⟩ | hpending
    · refine ⟨r, hr, hevolves.id.symm, ?_⟩
      rcases hevolves.fulfilled hfulfilled with rfl | ⟨hscheduled, item, track, hrow⟩
      · exact .inl hfulfilled
      · obtain ⟨hitem, htrack, haired⟩ := hrow
        have hwants := hevolves.track.symm.trans htrack
        exact .inr ⟨hscheduled, item, track, hitem, hwants, htrack, haired⟩
    · cases hpending.symm.trans hfulfilled
  track := h.track

/-- However the workers' statements interleave, no log spends more slots than the configuration
allows, and every step respects the life of the requests. -/
theorem song_request_lifecycle (h : AtRest station s) (events : List (Event α)) :
    (∀ log, ((run (step station) events s).db.carriers log).card ≤
      station.cfg.maxFulfilledPerHour) ∧
      Throughout (step station) (fun e t => Lifecycle t.db (step station e t).db) events s := by
  have hall : Throughout (step station) (fun _ _ => True) events s := throughout_true events s
  have hstep : ∀ (e : Event α) t, True → Sound station t → Sound station (step station e t) :=
    fun e t _ ht => (step_steps e ht).sound ht
  constructor
  · exact (invariant hstep h.sound hall).db.capacity
  · exact throughout_of_invariant hstep (fun e t _ ht => (step_steps e ht).keeps.lifecycle) h.sound
      hall

/-- One slot an hour, in an hour with one song. -/
def sampleStation : Station where
  cfg := ⟨true, [10], 1, 168⟩
  slotOf _ := 10
  title _ := "title"
  artist _ := "artist"

def sampleItem : LogItem where
  id := 5
  playlistLog := 3
  track := some 70
  trackTitle := "title"
  trackArtist := "artist"
  kind := some "music"
  scheduledTime := 36000
  playbackClaimedAt := none
  playedAt := none

def sampleDatabase : Database where
  logs i := if i = 3 then some ⟨true, 1, 10⟩ else none
  items i := if i = 5 then some sampleItem else none
  requests := .empty
  airings := []

def sampleAtRest : State Bool where
  db := sampleDatabase
  locks := .none
  place _ := .idle

/-- Two requests for one track; the reconciler schedules both while the engine is refused the
log, and the engine airs them. -/
def sampleEvents : List (Event Bool) :=
  [.submit 1 (some 80) 100 100, .submit 2 (some 80) 110 110,
    .beginScheduling true 5 (some 70) (some "music") 200,
    .beginScheduling false 5 (some 70) (some "music") 200,
    .lockItem true, .askReserved true, .countUsed true, .pick true (fun _ => true) none,
    .collapse true none, .commit true, .claimPlayback 5 300, .lockAiring false 5,
    .recordAirStart false 80 310]

omit [DecidableEq α] in
theorem dbSound_sample : DbSound sampleStation sampleDatabase where
  capacity log := by simp [Database.carriers, Database.usedItems, sampleDatabase]
  item_id := by
    intro i item hitem
    simp only [sampleDatabase] at hitem
    split_ifs at hitem with hi
    rw [← Option.some.inj hitem, hi]
    rfl
  aired := by
    intro i item track hitem hplayed
    simp only [sampleDatabase] at hitem
    split_ifs at hitem
    rw [← Option.some.inj hitem] at hplayed
    exact absurd rfl hplayed
  tracked := by simp [sampleDatabase]

theorem song_request_lifecycle_sample :
    ((run (step sampleStation) sampleEvents sampleAtRest).db.requests.items.map
        SongRequest.status = [.fulfilled, .fulfilled]) ∧
      (∀ log, ((run (step sampleStation) sampleEvents sampleAtRest).db.carriers log).card ≤ 1) ∧
      Throughout (step sampleStation)
        (fun e t => Lifecycle t.db (step sampleStation e t).db) sampleEvents sampleAtRest :=
  ⟨by decide, song_request_lifecycle ⟨dbSound_sample, fun _ => rfl⟩ sampleEvents⟩

end IsadoraAir.WebRequests
