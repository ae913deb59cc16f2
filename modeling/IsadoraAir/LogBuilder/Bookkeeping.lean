import IsadoraAir.LogBuilder.Hour

/-!
# The books of an hour

The three appenders are one operation on the books: the picks, the seconds, the
tracks and the identity keys. The books that start empty and grow by it say what
the list of picks says.
-/

namespace IsadoraAir.LogBuilder

open RunningTotal Relation

variable {lib : Library} {w w' : RotationWalk lib}

/-- What the appenders keep, whatever variables they keep it in. -/
structure Books (lib : Library) where
  picks : List (Pick lib)
  accumulatedSeconds : ℚ
  pickedTracks : List lib.Row
  pickedIdentityKeys : Finset String

def HourBuildContext.books (ctx : HourBuildContext lib) : Books lib :=
  ⟨ctx.picks, ctx.accumulatedSeconds, ctx.pickedTracks, ctx.pickedIdentityKeys⟩

def RotationWalk.books (w : RotationWalk lib) : Books lib :=
  ⟨w.ctx.picks, w.accumulatedSeconds, w.ctx.pickedTracks, w.ctx.pickedIdentityKeys⟩

def Fill.books (f : Fill lib) : Books lib :=
  ⟨f.picks, f.accumulatedSeconds, f.pickedTracks, f.pickedIdentityKeys⟩

/-- What it is to append a pick. -/
def Books.append (base : ℤ) (offset : ℚ) (b : Books lib) (track : lib.Row)
    (category : Option Category) (origin : Option Origin) : Books lib where
  picks := b.picks ++ [⟨b.picks.length, base + timedelta (offset + b.accumulatedSeconds), track,
    category, origin⟩]
  accumulatedSeconds := b.accumulatedSeconds + effectiveAirtimeSeconds track
  pickedTracks := b.pickedTracks ++ [track]
  pickedIdentityKeys := b.pickedIdentityKeys ∪ lib.keysOf track

theorem recordPick_books (ctx : HourBuildContext lib) (track : lib.Row)
    (category : Option Category) :
    (ctx.recordPick track category).books = ctx.books.append ctx.targetDatetime
      ctx.scheduledTimeOffsetSeconds track category none := rfl

theorem appendPick_books (w : RotationWalk lib) (track : lib.Row) (category : Option Category) :
    (w.appendPick track category).books = w.books.append w.ctx.targetDatetime
      w.ctx.scheduledTimeOffsetSeconds track category none := rfl

theorem appendFillPick_books (c : FillParameters) (f : Fill lib) (track : lib.Row) :
    (f.appendFillPick c track).books = f.books.append c.targetDatetime
      c.scheduledTimeOffsetSeconds track (some c.category) (some .generatedFill) := rfl

/-! ## Books that are kept -/

def airtime (p : Pick lib) : ℚ := effectiveAirtimeSeconds p.track

/-- The stamp of a pick. -/
def Stamped (base : ℤ) (offset : ℚ) (i : ℕ) (seconds : ℚ) (p : Pick lib) : Prop :=
  p.position = i ∧ p.scheduledTime = base + timedelta (offset + seconds)

/-- The books say what their list of picks says. -/
structure Books.Kept (base : ℤ) (offset start : ℚ) (b : Books lib) : Prop where
  posted : Posted airtime (Stamped base offset) 0 start b.picks
  accumulated : b.accumulatedSeconds = start + total airtime b.picks
  tracks : b.pickedTracks = b.picks.map Pick.track
  keys : b.pickedIdentityKeys = identityKeysForPicks b.picks

theorem identityKeysForPicks_append (picks : List (Pick lib)) (p : Pick lib) :
    identityKeysForPicks (picks ++ [p]) = identityKeysForPicks picks ∪ lib.keysOf p.track := by
  unfold identityKeysForPicks
  rw [List.foldl_append, List.foldl_cons, List.foldl_nil, p.track.property]
  rfl

section Kept

variable {base : ℤ} {offset start : ℚ} {b b' : Books lib}

theorem Books.Kept.append (h : b.Kept base offset start) (track : lib.Row)
    (category : Option Category) (origin : Option Origin) :
    (b.append base offset track category origin).Kept base offset start where
  posted := by
    refine h.posted.concat ⟨(Nat.zero_add _).symm, ?_⟩
    rw [← h.accumulated]
  accumulated := by
    show b.accumulatedSeconds + _ = start + total airtime (b.picks ++ [_])
    rw [h.accumulated, total_append, total_cons, total_nil, add_zero, add_assoc]
    rfl
  tracks := by
    show b.pickedTracks ++ [track] = (b.picks ++ [_]).map Pick.track
    rw [h.tracks, List.map_append]
    rfl
  keys := by
    show b.pickedIdentityKeys ∪ _ = identityKeysForPicks (b.picks ++ [_])
    rw [h.keys, identityKeysForPicks_append]

/-- The second books are the first with some picks appended. -/
def Grows (base : ℤ) (offset : ℚ) : Books lib → Books lib → Prop :=
  ReflTransGen fun b b' => ∃ track category origin, b' = b.append base offset track category origin

theorem grows_append (track : lib.Row) (category : Option Category) (origin : Option Origin) :
    Grows base offset b (b.append base offset track category origin) :=
  ReflTransGen.single ⟨track, category, origin, rfl⟩

theorem Grows.kept (h : Grows base offset b b') (hb : b.Kept base offset start) :
    b'.Kept base offset start := by
  induction h with
  | refl => exact hb
  | tail _ hstep ih =>
    obtain ⟨track, category, origin, rfl⟩ := hstep
    exact ih.append track category origin

theorem Grows.picks_mono (h : Grows base offset b b') : b.picks <+: b'.picks := by
  induction h with
  | refl => exact List.prefix_rfl
  | tail _ hstep ih =>
    obtain ⟨track, category, origin, rfl⟩ := hstep
    exact ih.trans (List.prefix_append ..)

end Kept

/-! ## The walk of a rotation -/

section Walk

variable (sel : Selector lib)

/-- A walk that went on appending. -/
structure RotationWalk.Extends (w w' : RotationWalk lib) : Prop where
  base : w'.ctx.targetDatetime = w.ctx.targetDatetime
  offset : w'.ctx.scheduledTimeOffsetSeconds = w.ctx.scheduledTimeOffsetSeconds
  grows : Grows w.ctx.targetDatetime w.ctx.scheduledTimeOffsetSeconds w.books w'.books

theorem RotationWalk.Extends.refl (w : RotationWalk lib) : w.Extends w := ⟨rfl, rfl, .refl⟩

theorem RotationWalk.Extends.trans {w'' : RotationWalk lib} (h : w.Extends w')
    (h' : w'.Extends w'') : w.Extends w'' where
  base := h'.base.trans h.base
  offset := h'.offset.trans h.offset
  grows := by
    have hgrows := h'.grows
    rw [h.base, h.offset] at hgrows
    exact h.grows.trans hgrows

theorem RotationWalk.extends_appendPick (w : RotationWalk lib) (track : lib.Row)
    (category : Option Category) : w.Extends (w.appendPick track category) :=
  ⟨rfl, rfl, grows_append track category none⟩

/-- Neither the diagnostics nor the selections are in the books. -/
theorem RotationWalk.Extends.count (h : w.Extends w')
    (f : SelectionDiagnostics → SelectionDiagnostics) : w.Extends (w'.count f) :=
  ⟨h.base, h.offset, h.grows⟩

theorem RotationWalk.Extends.selected (h : w.Extends w') :
    w.Extends w'.selected :=
  ⟨h.base, h.offset, h.grows⟩

theorem RotationWalk.Extends.appendPick (h : w.Extends w')
    (track : lib.Row) (category : Option Category) : w.Extends (w'.appendPick track category) :=
  h.trans (w'.extends_appendPick track category)

theorem RotationWalk.extends_singlePick (w : RotationWalk lib) (category : Category)
    (remaining : ℚ) (forceFitMode : Bool) (f : SelectionDiagnostics → SelectionDiagnostics) :
    w.Extends (w.singlePick sel category remaining forceFitMode f).walk := by
  unfold singlePick
  split
  · dsimp only
    exact (Extends.refl w).selected.count _
  · exact ((Extends.refl w).selected.appendPick _ _).count f

theorem RotationWalk.extends_turn (target : ℚ) (w : RotationWalk lib) (slot : RotationSlot lib)
    (next : Option (RotationSlot lib)) : w.Extends (w.turn sel target slot next).walk := by
  unfold turn
  cases slot with
  | track track =>
    dsimp only
    exact ((Extends.refl w).appendPick _ _).count _
  | category category =>
    dsimp only
    split_ifs
    · exact w.extends_singlePick sel ..
    · exact w.extends_singlePick sel ..
    · split
      · dsimp only
        exact (((Extends.refl w).selected.appendPick _ _).appendPick _ _).count _
      · exact ((Extends.refl w).selected.count _).trans (RotationWalk.extends_singlePick sel ..)

theorem RotationWalk.extends_walkSlots (target : ℚ) (slots : List (RotationSlot lib))
    (w : RotationWalk lib) : w.Extends (walkSlots sel target slots w) := by
  fun_induction walkSlots sel target slots w with
  | case1 w => exact .refl w
  | case2 w slot rest t hdone => exact RotationWalk.extends_turn sel ..
  | case3 w slot t hgo hnext => exact RotationWalk.extends_turn sel ..
  | case4 w slot next rest t hgo hnext ih => exact (RotationWalk.extends_turn sel ..).trans ih
  | case5 w slot rest t hgo hnext ih => exact (RotationWalk.extends_turn sel ..).trans ih

theorem walkRotationSegment_grows (ctx : HourBuildContext lib) (slots : List (RotationSlot lib))
    (segmentEnd : ℚ) :
    (walkRotationSegment sel ctx slots segmentEnd).targetDatetime = ctx.targetDatetime ∧
      (walkRotationSegment sel ctx slots segmentEnd).scheduledTimeOffsetSeconds =
        ctx.scheduledTimeOffsetSeconds ∧
      Grows ctx.targetDatetime ctx.scheduledTimeOffsetSeconds ctx.books
        (walkRotationSegment sel ctx slots segmentEnd).books := by
  have h := RotationWalk.extends_walkSlots sel segmentEnd slots
    ⟨{ ctx with rotationWalked := true }, ctx.accumulatedSeconds⟩
  exact ⟨h.base, h.offset, h.grows⟩

end Walk

/-! ## The walk of a playlist -/

theorem walkPlaylistSegment_grows (ctx : HourBuildContext lib) (items : List lib.Row) :
    (walkPlaylistSegment ctx items).targetDatetime = ctx.targetDatetime ∧
      (walkPlaylistSegment ctx items).scheduledTimeOffsetSeconds =
        ctx.scheduledTimeOffsetSeconds ∧
      Grows ctx.targetDatetime ctx.scheduledTimeOffsetSeconds ctx.books
        (walkPlaylistSegment ctx items).books := by
  unfold walkPlaylistSegment
  induction items generalizing ctx with
  | nil => exact ⟨rfl, rfl, .refl⟩
  | cons track rest ih =>
    obtain ⟨hbase, hoffset, hgrows⟩ := ih (ctx.recordPick track track.val.category)
    refine ⟨hbase, hoffset, .head ⟨track, _, _, recordPick_books ..⟩ hgrows⟩

/-! ## The fill -/

section Fill

variable (sel : Selector lib) (c : FillParameters)

theorem Fill.grows_appendFillPick (f : Fill lib) (track : lib.Row) :
    Grows c.targetDatetime c.scheduledTimeOffsetSeconds f.books
      (f.appendFillPick c track).books :=
  grows_append track (some c.category) (some .generatedFill)

theorem Fill.grows_loop (n : ℕ) (f : Fill lib) :
    Grows c.targetDatetime c.scheduledTimeOffsetSeconds f.books (loop sel c n f).books := by
  fun_induction Fill.loop sel c n f with
  | case1 f => exact .refl
  | case2 n f hdone => exact .refl
  | case3 n f hgo trackA trackB hpair ih =>
    exact ((f.selected.grows_appendFillPick c trackA).trans
      (Fill.grows_appendFillPick c _ trackB)).trans ih
  | case4 n f hgo hpair hnone => exact .refl
  | case5 n f hgo hpair track hpick hzero => exact f.selected.selected.grows_appendFillPick c track
  | case6 n f hgo hpair track hpick hpos ih =>
    exact (f.selected.selected.grows_appendFillPick c track).trans ih

end Fill

/-! ## The hour -/

section Hour

variable (sel : Selector lib) {base : ℤ} {offset start : ℚ} {ctx ctx' : HourBuildContext lib}

/-- A context whose books are kept on its clock. -/
structure OnBooks (base : ℤ) (offset start : ℚ) (ctx : HourBuildContext lib) : Prop where
  base_eq : ctx.targetDatetime = base
  offset_eq : ctx.scheduledTimeOffsetSeconds = offset
  kept : ctx.books.Kept base offset start

theorem OnBooks.grows (h : OnBooks base offset start ctx)
    (hgrows : ctx'.targetDatetime = ctx.targetDatetime ∧
      ctx'.scheduledTimeOffsetSeconds = ctx.scheduledTimeOffsetSeconds ∧
      Grows ctx.targetDatetime ctx.scheduledTimeOffsetSeconds ctx.books ctx'.books) :
    OnBooks base offset start ctx' ∧ ctx.picks <+: ctx'.picks := by
  obtain ⟨hbase, hoffset, hgrows⟩ := hgrows
  have hlonger := hgrows.picks_mono
  rw [h.base_eq, h.offset_eq] at hgrows
  exact ⟨⟨hbase.trans h.base_eq, hoffset.trans h.offset_eq, hgrows.kept h.kept⟩, hlonger⟩

/-- The fill keeps books of its own; they become the context's when it is synchronised. -/
theorem OnBooks.fill (h : OnBooks base offset start ctx) (target : ℚ) :
    OnBooks base offset start (fillRemainingHour sel ctx target).resyncFromPicks ∧
      ctx.picks <+: (fillRemainingHour sel ctx target).resyncFromPicks.picks := by
  have hsame : OnBooks base offset start ctx.resyncFromPicks :=
    ⟨h.base_eq, h.offset_eq, ⟨h.kept.posted, h.kept.accumulated, rfl, rfl⟩⟩
  unfold fillRemainingHour
  split_ifs
  · exact ⟨hsame, List.prefix_rfl⟩
  · split
    · exact ⟨hsame, List.prefix_rfl⟩
    · next category hcategory =>
      have hstart : Books.Kept base offset start ⟨ctx.picks, ctx.accumulatedSeconds,
          ctx.picks.map Pick.track, identityKeysForPicks ctx.picks⟩ :=
        ⟨h.kept.posted, h.kept.accumulated, rfl, rfl⟩
      have hgrows := Fill.grows_loop sel
        ⟨ctx.targetDatetime, target, ctx.scheduledTimeOffsetSeconds, category⟩ maxFillTracks
        { picks := ctx.picks
          accumulatedSeconds := ctx.accumulatedSeconds
          remaining := target - ctx.accumulatedSeconds
          pickedTracks := ctx.picks.map Pick.track
          pickedIdentityKeys := identityKeysForPicks ctx.picks
          selections := ctx.selections }
      have hlonger := hgrows.picks_mono
      simp only [h.base_eq, h.offset_eq] at hgrows hlonger
      have hend := hgrows.kept hstart
      simp only [h.base_eq, h.offset_eq]
      exact ⟨⟨rfl, rfl, ⟨hend.posted, hend.accumulated, rfl, rfl⟩⟩, hlonger⟩

theorem buildWindow_onBooks (h : OnBooks base offset start ctx) (w : SegmentWindow lib) :
    OnBooks base offset start (buildWindow sel ctx w).1 ∧
      ctx.picks <+: (buildWindow sel ctx w).1.picks := by
  unfold buildWindow
  split_ifs
  · dsimp only
    split
    · next slots hsource =>
      obtain ⟨hwalked, hlonger⟩ := h.grows (walkRotationSegment_grows sel ctx slots w.endOffset)
      obtain ⟨hbuilt, hlonger'⟩ := hwalked.fill sel w.endOffset
      exact ⟨hbuilt, hlonger.trans hlonger'⟩
    · next items hsource =>
      obtain ⟨hwalked, hlonger⟩ := h.grows (walkPlaylistSegment_grows ctx items)
      obtain ⟨hbuilt, hlonger'⟩ := hwalked.fill sel w.endOffset
      exact ⟨hbuilt, hlonger.trans hlonger'⟩
  · exact ⟨h, List.prefix_rfl⟩

/-- A record counts the picks of its window and starts at the clock of the context. -/
theorem buildWindow_record (ctx : HourBuildContext lib) (w : SegmentWindow lib) :
    (buildWindow sel ctx w).2.items = (buildWindow sel ctx w).1.picks.length - ctx.picks.length ∧
      (0 < (buildWindow sel ctx w).2.items →
        (buildWindow sel ctx w).2.actualStartSeconds = some ctx.accumulatedSeconds) := by
  unfold buildWindow
  split_ifs
  · exact ⟨rfl, fun _ => rfl⟩
  · exact ⟨(Nat.sub_self _).symm, fun hpos => absurd hpos (Nat.lt_irrefl 0)⟩

/-- A window that has picks starts at the seconds of the picks before it. -/
def Started (start : ℚ) (picks : List (Pick lib)) (_ n : ℕ) (r : SegmentRecord) : Prop :=
  0 < r.items → r.actualStartSeconds = some (start + total airtime (picks.take n))

theorem buildWindows_onBooks (h : OnBooks base offset start ctx)
    (windows : List (SegmentWindow lib)) :
    OnBooks base offset start (buildWindows sel ctx windows).1 ∧
      ctx.picks <+: (buildWindows sel ctx windows).1.picks ∧
      ctx.picks.length + total SegmentRecord.items (buildWindows sel ctx windows).2 =
        (buildWindows sel ctx windows).1.picks.length ∧
      ∀ i, Posted SegmentRecord.items
        (Started start (buildWindows sel ctx windows).1.picks) i ctx.picks.length
        (buildWindows sel ctx windows).2 := by
  induction windows generalizing ctx with
  | nil => exact ⟨h, List.prefix_rfl, rfl, fun _ => trivial⟩
  | cons w rest ih =>
    obtain ⟨hone, hlonger⟩ := buildWindow_onBooks sel h w
    obtain ⟨hitems, hstart⟩ := buildWindow_record sel ctx w
    obtain ⟨hall, hlonger', htotal, hposted⟩ := ih hone
    have hlength := hlonger.length_le
    have hnext : ctx.picks.length + (buildWindow sel ctx w).2.items =
        (buildWindow sel ctx w).1.picks.length := by omega
    refine ⟨hall, hlonger.trans hlonger', ?_, ?_⟩
    · show ctx.picks.length + ((buildWindow sel ctx w).2.items + total _ _) = _
      rw [← Nat.add_assoc, hnext]
      exact htotal
    · intro i
      show Posted SegmentRecord.items _ i ctx.picks.length ((buildWindow sel ctx w).2 :: _)
      refine ⟨?_, ?_⟩
      · intro hpos
        have hacc : ctx.accumulatedSeconds = start + total airtime ctx.picks := h.kept.accumulated
        have htake := List.prefix_iff_eq_take.mp (hlonger.trans hlonger')
        rw [hstart hpos, hacc]
        exact congrArg (fun picks => some (start + total airtime picks)) htake
      · show Posted SegmentRecord.items _ (i + 1)
          (ctx.picks.length + (buildWindow sel ctx w).2.items) _
        rw [hnext]
        exact hposted (i + 1)

theorem newHourContext_onBooks (lib : Library) (base : ℤ) (start offset : ℚ) :
    OnBooks base offset start (newHourContext lib base start offset) :=
  ⟨rfl, rfl, ⟨trivial, (add_zero start).symm, rfl, rfl⟩⟩

end Hour

/-- What a built hour says of its picks, for the clock that it started with. -/
structure HourBooks (base : ℤ) (offset start : ℚ) (ctx : HourBuildContext lib)
    (records : List SegmentRecord) : Prop where
  positions : ctx.picks.map Pick.position = List.range ctx.picks.length
  scheduled : ∀ (i : ℕ) (hi : i < ctx.picks.length), ctx.picks[i].scheduledTime =
    base + timedelta (offset + (start + total airtime (ctx.picks.take i)))
  nondecreasing : ctx.picks.Pairwise fun p q => p.scheduledTime ≤ q.scheduledTime
  windows : ∀ (j : ℕ) (hj : j < records.length) (k : ℕ), k < records[j].items →
    ∃ (a : ℚ) (hi : total SegmentRecord.items (records.take j) + k < ctx.picks.length),
      records[j].actualStartSeconds = some a ∧
      ctx.picks[total SegmentRecord.items (records.take j) + k].scheduledTime =
        base + timedelta (offset + (a + total airtime
          ((ctx.picks.drop (total SegmentRecord.items (records.take j))).take k)))
  items : total SegmentRecord.items records = ctx.picks.length
  accumulated : ctx.accumulatedSeconds = start + total airtime ctx.picks
  tracks : trackIds ctx.pickedTracks = (ctx.picks.map fun p => p.track.val.id).toFinset
  keys : ctx.pickedIdentityKeys = identityKeysForPicks ctx.picks

theorem posted_positions {base : ℤ} {offset start : ℚ} {picks : List (Pick lib)}
    (h : Posted airtime (Stamped base offset) 0 start picks) :
    picks.map Pick.position = List.range picks.length := by
  apply List.ext_getElem
  · rw [List.length_map, List.length_range]
  · intro i hi _
    rw [List.getElem_map, List.getElem_range]
    have hstamp := h.getElem i (by rwa [List.length_map] at hi)
    rw [hstamp.1, Nat.zero_add]

theorem OnBooks.hourBooks {base : ℤ} {offset start : ℚ} {ctx : HourBuildContext lib}
    {records : List SegmentRecord} (h : OnBooks base offset start ctx)
    (hitems : total SegmentRecord.items records = ctx.picks.length)
    (hstarted : Posted SegmentRecord.items (Started start ctx.picks) 0 0 records) :
    HourBooks base offset start ctx records := by
  have hposted : Posted airtime (Stamped base offset) 0 start ctx.picks := h.kept.posted
  have hscheduled : ∀ (i : ℕ) (hi : i < ctx.picks.length), ctx.picks[i].scheduledTime =
      base + timedelta (offset + (start + total airtime (ctx.picks.take i))) :=
    fun i hi => (hposted.getElem i hi).2
  have hclock : Monotone fun seconds => base + timedelta (offset + seconds) := by
    intro x y hxy
    have htime := timedelta_monotone (add_le_add_right hxy offset)
    exact Int.add_le_add_left htime base
  refine ⟨posted_positions hposted, hscheduled, ?_, ?_, hitems, h.kept.accumulated, ?_, h.kept.keys⟩
  · exact hposted.pairwise (fun _ _ _ hstamp => hstamp.2) hclock
      (fun p => effectiveAirtime_nonneg ..)
  · intro j hj k hk
    have hstart := hstarted.getElem j hj (Nat.zero_lt_of_lt hk)
    rw [Nat.zero_add] at hstart
    have hi : total SegmentRecord.items (records.take j) + k < ctx.picks.length := by
      rw [← hitems]
      exact Nat.lt_of_lt_of_le (Nat.add_lt_add_left hk _) (total_take_add_le hj)
    refine ⟨_, hi, hstart, ?_⟩
    rw [hscheduled _ hi, List.take_add, total_append, add_assoc start]
  · have htracks : ctx.pickedTracks = ctx.picks.map Pick.track := h.kept.tracks
    rw [trackIds, htracks, List.map_map]
    rfl

theorem planHour_eq_build {sel : Selector lib} {targetDatetime : ℤ}
    {plans : List (SegmentPlan lib)} {targetDurationSeconds : ℚ} {observed : Bool}
    {built : HourBuildContext lib × List SegmentRecord}
    (h : planHour sel targetDatetime plans targetDurationSeconds observed = .ok built) :
    built = planHour.build sel targetDatetime plans
      (segmentWindows plans targetDurationSeconds) := by
  unfold planHour at h
  dsimp only at h
  split at h
  · split_ifs at h
    exact (Except.ok.inj h).symm
  · exact (Except.ok.inj h).symm

/-- A preview is always built. -/
theorem planHour_observed (sel : Selector lib) (targetDatetime : ℤ) (plans : List (SegmentPlan lib))
    (targetDurationSeconds : ℚ) :
    planHour sel targetDatetime plans targetDurationSeconds true =
      .ok (planHour.build sel targetDatetime plans
        (segmentWindows plans targetDurationSeconds)) := by
  unfold planHour
  dsimp only
  split <;> rfl

/-- A built hour keeps its books, whichever appenders wrote them: each of the three is the
same operation. -/
theorem hour_books (sel : Selector lib) (targetDatetime : ℤ) (plans : List (SegmentPlan lib))
    (targetDurationSeconds : ℚ) (observed : Bool)
    (built : HourBuildContext lib × List SegmentRecord)
    (h : planHour sel targetDatetime plans targetDurationSeconds observed = .ok built) :
    HourBooks targetDatetime
        (offsetSeconds plans (segmentWindows plans targetDurationSeconds))
        (startSeconds (segmentWindows plans targetDurationSeconds)) built.1 built.2 ∧
      (∀ (ctx : HourBuildContext lib) track category, (ctx.recordPick track category).books =
        ctx.books.append ctx.targetDatetime ctx.scheduledTimeOffsetSeconds track category none) ∧
      (∀ (w : RotationWalk lib) track category, (w.appendPick track category).books =
        w.books.append w.ctx.targetDatetime w.ctx.scheduledTimeOffsetSeconds track category
          none) ∧
      ∀ (c : FillParameters) (f : Fill lib) track, (f.appendFillPick c track).books =
        f.books.append c.targetDatetime c.scheduledTimeOffsetSeconds track (some c.category)
          (some .generatedFill) := by
  refine ⟨?_, recordPick_books, appendPick_books, appendFillPick_books⟩
  rw [planHour_eq_build h]
  obtain ⟨hon, -, hitems, hstarted⟩ := buildWindows_onBooks sel
    (newHourContext_onBooks lib targetDatetime
      (startSeconds (segmentWindows plans targetDurationSeconds))
      (offsetSeconds plans (segmentWindows plans targetDurationSeconds)))
    (segmentWindows plans targetDurationSeconds)
  exact hon.hourBooks ((Nat.zero_add _).symm.trans hitems) (hstarted 0)

def sampleCategory : Category := ⟨1, "music", none, none, false⟩

/-- Songs of two and a half minutes. -/
def sampleTrack (id : ℕ) : Track :=
  ⟨id, some "artist", "", none, some 150, none, some sampleCategory⟩

def sampleLibrary : Library where
  tracks id := some (sampleTrack id)
  trackIdentityKeys artist _ := artist.elim ∅ singleton
  categoryCount _ := 100
  artistSeparation := 1
  titleSeparation := 2
  fixedFillCategory := false
  fallbackCategory := none
  aired := []

def sampleRow (id : ℕ) : sampleLibrary.Row := ⟨sampleTrack id, rfl⟩

/-- Picks the tracks in the order of their ids, never a pair. -/
def sampleSelector : Selector sampleLibrary where
  pickTrack n _ := some (sampleRow n)
  findMatchedPair _ _ := none

/-- A playlist of two songs, and a rotation from the half hour on. -/
def samplePlans : List (SegmentPlan sampleLibrary) :=
  [⟨.playlist [sampleRow 7, sampleRow 8], "opening", 0⟩,
    ⟨.rotation [.category sampleCategory], "music", 30⟩]

def sampleHour : HourBuildContext sampleLibrary × List SegmentRecord :=
  planHour.build sampleSelector 0 samplePlans (segmentWindows samplePlans 3600)

theorem planHour_sample : planHour sampleSelector 0 samplePlans 3600 true = .ok sampleHour :=
  planHour_observed ..

theorem hour_books_sample :
    HourBooks 0 (offsetSeconds samplePlans (segmentWindows samplePlans 3600))
      (startSeconds (segmentWindows samplePlans 3600)) sampleHour.1 sampleHour.2 :=
  (hour_books sampleSelector 0 samplePlans 3600 true sampleHour planHour_sample).1

/-- The second song airs when the first one ends. -/
example : (sampleHour.1.picks.take 2).map Pick.scheduledTime = [0, 150000000] := by
  decide +kernel

end IsadoraAir.LogBuilder
