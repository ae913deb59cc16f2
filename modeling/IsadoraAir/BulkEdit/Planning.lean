import IsadoraAir.BulkEdit.Changes

/-!
# What a plan writes

The column of a named field gets its target, every other column stays; the
memberships that are not named stay, but for the new primary category.
-/

namespace IsadoraAir.BulkEdit

variable {albumArtists : List String} {ids : List ℕ} {albumArtist title : String}
  {targets : Targets} {v : Value} {c : ℕ} {now : ℤ}
  {ρ : Type} {changes : Changes} {rows : Rows} {t : Track ρ} {f : Field} {op : Op}

theorem find_filterMap {g : Field → Option (Field × Value)} (hg : ∀ f y, g f = some y → y.1 = f)
    {l : List Field} (h : f ∈ l) : (l.filterMap g).find? (fun y => y.1 = f) = g f := by
  induction l with
  | nil => cases h
  | cons x l ih =>
    cases hx : g x with
    | none =>
      rw [List.filterMap_cons_none hx]
      rcases List.mem_cons.mp h with rfl | h
      · rw [hx, List.find?_eq_none]
        intro y hy
        obtain ⟨z, -, hz⟩ := List.mem_filterMap.mp hy
        have hne : z ≠ f := by
          rintro rfl
          rw [hx] at hz
          cases hz
        simpa [hg z y hz] using hne
      · exact ih h
    | some y =>
      rw [List.filterMap_cons_some hx]
      by_cases hxf : x = f
      · subst hxf
        rw [List.find?_cons_of_pos (by simp [hg x y hx]), hx]
      · rw [List.find?_cons_of_neg (by simpa [hg x y hx] using hxf)]
        exact ih ((List.mem_cons.mp h).resolve_left fun heq => hxf heq.symm)

theorem change_fst {y : Field × Value} (h : change changes rows t f = some y) : y.1 = f := by
  unfold change at h
  obtain ⟨op, -, h⟩ := Option.bind_eq_some_iff.mp h
  split_ifs at h
  cases h
  rfl

theorem plan_column : (plan changes rows t).column t f =
    ((change changes rows t f).map Prod.snd).getD (t.columns f) := by
  rw [Plan.column, plan, find_filterMap (fun _ _ => change_fst) (mem_fields f)]

/-- A field that is not named keeps its column. -/
theorem plan_column_of_none (h : changes.op f = none) :
    (plan changes rows t).column t f = t.columns f := by
  simp [plan_column, change, h]

/-- A field that is named gets its target. -/
theorem plan_column_of_some (h : changes.op f = some op)
    (htarget : target rows f op = some v) : (plan changes rows t).column t f = v := by
  rw [plan_column, change, h, Option.bind_some, htarget]
  by_cases hsame : v = t.columns f
  · rw [if_pos (congrArg some hsame)]
    exact hsame.symm
  · rw [if_neg fun heq => hsame (Option.some.inj heq)]
    rfl

/-- The target of a category is known. -/
theorem target_category (rows : Rows) (op : Op) : ∃ v, target rows .category op = some v := by
  cases op with
  | clear => exact ⟨_, rfl⟩
  | set value => exact ⟨value, rfl⟩

theorem plan_category : (plan changes rows t).column t .category = newPrimary changes rows t := by
  unfold newPrimary
  split
  · next op hop =>
    obtain ⟨v, hv⟩ := target_category rows op
    rw [plan_column_of_some hop hv, hv]
    rfl
  · next hop => exact plan_column_of_none hop

theorem mem_dropPrimary {removed : List ℕ} :
    c ∈ dropPrimary t removed v ↔ v = .row c ∧ c ∈ t.additional ∧ c ∉ removed := by
  cases v with
  | row id =>
    simp only [dropPrimary, Value.row.injEq]
    split_ifs with h
    · rw [List.mem_singleton]
      exact ⟨fun heq => ⟨heq.symm, heq ▸ h⟩, fun heq => heq.1.symm⟩
    · simp only [List.not_mem_nil, false_iff]
      rintro ⟨rfl, hmem⟩
      exact h hmem
  | _ => simp [dropPrimary]

/-- The additional categories after the plan. -/
theorem mem_additional :
    c ∈ ((plan changes rows t).write now t).additional ↔
      .row c ≠ newPrimary changes rows t ∧
        (c ∈ changes.addCategories ∨ c ∈ t.additional ∧ c ∉ changes.removeCategories) := by
  simp only [Plan.write, plan, List.mem_append, List.mem_filter, decide_eq_true_eq,
    mem_dropPrimary, not_or, not_and]
  constructor
  · rintro (⟨hmem, hremoved, hprimary⟩ | ⟨hadd, hprimary, -⟩)
    · have hnamed : c ∉ changes.removeCategories := fun h => hremoved h hmem
      exact ⟨fun heq => hprimary heq.symm hmem hremoved, .inr ⟨hmem, hnamed⟩⟩
    · exact ⟨hprimary, .inl hadd⟩
  · rintro ⟨hprimary, hadd | ⟨hmem, hnamed⟩⟩
    · by_cases hmem : c ∈ t.additional
      · exact .inl ⟨hmem, fun h => absurd h (changes.categories c hadd),
          fun heq => absurd heq.symm hprimary⟩
      · exact .inr ⟨hadd, hprimary, hmem⟩
    · exact .inl ⟨hmem, fun h => absurd h hnamed, fun heq => absurd heq.symm hprimary⟩

theorem mem_holidays {c : String} :
    c ∈ ((plan changes rows t).write now t).holidays ↔
      c ∈ changes.addHolidays ∨ c ∈ t.holidays ∧ c ∉ changes.removeHolidays := by
  simp only [Plan.write, plan, List.mem_append, List.mem_filter, decide_eq_true_eq, not_and]
  constructor
  · rintro (⟨hmem, hremoved⟩ | ⟨hadd, -⟩)
    · exact .inr ⟨hmem, fun h => hremoved h hmem⟩
    · exact .inl hadd
  · rintro (hadd | ⟨hmem, hnamed⟩)
    · by_cases hmem : c ∈ t.holidays
      · exact .inl ⟨hmem, fun h => absurd h (changes.holidays c hadd)⟩
      · exact .inr ⟨hadd, hmem⟩
    · exact .inl ⟨hmem, fun h => absurd h hnamed⟩

/-! ## The rows of the names -/

/-- The field refers to a row that has the name asked for; the case of an artist does not
matter, and an album goes with the album artist. -/
def Names (cfg : Config) (db : Db ρ) (albumArtist : String) (name : String) (id : ℕ) : Field → Prop
  | .artist => ∃ row ∈ db.artists, row.1 = id ∧ cfg.upper row.2 = cfg.upper name
  | .album => (id, name, albumArtist) ∈ db.albums
  | .genre => (id, name) ∈ db.genres
  | _ => False

variable {cfg : Config} {db : Db ρ} {name : String} {id : ℕ}

theorem createArtist_names : ∃ row ∈ (db.createArtist cfg name).2.artists,
    row.1 = (db.createArtist cfg name).1 ∧ cfg.upper row.2 = cfg.upper name := by
  unfold Db.createArtist
  split
  · next id hid =>
    obtain ⟨row, hrow, rfl⟩ := Option.map_eq_some_iff.mp hid
    exact ⟨row, List.mem_of_find?_eq_some hrow, rfl, by simpa using List.find?_some hrow⟩
  · exact ⟨_, List.mem_append_right _ (List.mem_singleton_self _), rfl, rfl⟩

theorem createGenre_names : ((db.createGenre name).1, name) ∈ (db.createGenre name).2.genres := by
  unfold Db.createGenre
  split
  · next id hid =>
    obtain ⟨row, hrow, rfl⟩ := Option.map_eq_some_iff.mp hid
    obtain rfl : row.2 = name := by simpa using List.find?_some hrow
    exact List.mem_of_find?_eq_some hrow
  · exact List.mem_append_right _ (List.mem_singleton_self _)

theorem createAlbum_names :
    ((db.createAlbum title albumArtist).1, title, albumArtist) ∈
      (db.createAlbum title albumArtist).2.albums := by
  unfold Db.createAlbum
  split
  · next id hid =>
    obtain ⟨row, hrow, rfl⟩ := Option.map_eq_some_iff.mp hid
    obtain hrow2 : row.2 = (title, albumArtist) := by simpa using List.find?_some hrow
    rw [← hrow2]
    exact List.mem_of_find?_eq_some hrow
  · exact List.mem_append_right _ (List.mem_singleton_self _)

/-- Nothing but new lookup rows. -/
structure Db.Extends (db db' : Db ρ) : Prop where
  tracks : db'.tracks = db.tracks
  artists : db.artists ⊆ db'.artists
  albums : db.albums ⊆ db'.albums
  genres : db.genres ⊆ db'.genres
  categories : db'.categories = db.categories

namespace Db.Extends

variable {db' db'' : Db ρ}

theorem refl (db : Db ρ) : db.Extends db := ⟨rfl, fun _ h => h, fun _ h => h, fun _ h => h, rfl⟩

theorem trans (h : db.Extends db') (h' : db'.Extends db'') : db.Extends db'' where
  tracks := h'.tracks.trans h.tracks
  artists := List.Subset.trans h.artists h'.artists
  albums := List.Subset.trans h.albums h'.albums
  genres := List.Subset.trans h.genres h'.genres
  categories := h'.categories.trans h.categories

end Db.Extends

theorem createArtist_extends : db.Extends (db.createArtist cfg name).2 := by
  unfold Db.createArtist
  split
  · exact .refl db
  · exact ⟨rfl, List.subset_append_left _ _, fun _ h => h, fun _ h => h, rfl⟩

theorem createAlbum_extends : db.Extends (db.createAlbum title albumArtist).2 := by
  unfold Db.createAlbum
  split
  · exact .refl db
  · exact ⟨rfl, fun _ h => h, List.subset_append_left _ _, fun _ h => h, rfl⟩

theorem createGenre_extends : db.Extends (db.createGenre name).2 := by
  unfold Db.createGenre
  split
  · exact .refl db
  · exact ⟨rfl, fun _ h => h, fun _ h => h, List.subset_append_left _ _, rfl⟩

theorem createAlbums_extends : db.Extends (db.createAlbums title albumArtists).2 := by
  induction albumArtists generalizing db with
  | nil => exact .refl db
  | cons albumArtist rest ih => exact createAlbum_extends.trans ih

theorem createAlbums_names :
    ∀ row ∈ (db.createAlbums title albumArtists).1,
      (row.2, title, row.1) ∈ (db.createAlbums title albumArtists).2.albums := by
  induction albumArtists generalizing db with
  | nil => exact fun _ h => absurd h List.not_mem_nil
  | cons albumArtist rest ih =>
    intro row hrow
    rcases List.mem_cons.mp hrow with rfl | hrow
    · have hextends : (db.createAlbum title albumArtist).2.Extends
          ((db.createAlbum title albumArtist).2.createAlbums title rest).2 := createAlbums_extends
      exact hextends.albums createAlbum_names
    · exact ih row hrow

/-- What the prepared rows are for. -/
structure Prepared (cfg : Config) (changes : Changes) (db : Db ρ) (targets : Targets) : Prop where
  artist : ∀ name, changes.name .artist = some name →
    ∃ id, targets.artist = some id ∧ Names cfg db "" name id .artist
  genre : ∀ name, changes.name .genre = some name →
    ∃ id, targets.genre = some id ∧ Names cfg db "" name id .genre
  albums : ∀ title, changes.name .album = some title →
    ∀ row ∈ targets.albums, Names cfg db row.1 title row.2 .album

theorem Names.mono {db' : Db ρ} {g : Field}
    (h : Names cfg db albumArtist name id g) (hextends : db.Extends db') :
    Names cfg db' albumArtist name id g := by
  cases g with
  | artist =>
    obtain ⟨row, hrow, hnames⟩ := h
    exact ⟨row, hextends.artists hrow, hnames⟩
  | album => exact hextends.albums h
  | genre => exact hextends.genres h
  | _ => exact h

theorem prepareArtist_extends : db.Extends (prepareArtist cfg changes db).2 := by
  unfold prepareArtist
  split
  · exact createArtist_extends
  · exact .refl db

theorem prepareAlbums_extends : db.Extends (prepareAlbums changes ids db).2 := by
  unfold prepareAlbums
  split
  · exact createAlbums_extends
  · exact .refl db

theorem prepareGenre_extends : db.Extends (prepareGenre changes db).2 := by
  unfold prepareGenre
  split
  · exact createGenre_extends
  · exact .refl db

theorem prepareTargets_extends : db.Extends (prepareTargets cfg changes ids db).2 :=
  (prepareArtist_extends.trans prepareAlbums_extends).trans prepareGenre_extends

theorem prepareTargets_prepared :
    Prepared cfg changes (prepareTargets cfg changes ids db).2
      (prepareTargets cfg changes ids db).1 where
  artist name hname := by
    refine ⟨(db.createArtist cfg name).1, ?_, ?_⟩
    · simp only [prepareTargets, prepareArtist, hname]
    · have hnames : Names cfg (prepareArtist cfg changes db).2 "" name
          (db.createArtist cfg name).1 .artist := by
        simp only [prepareArtist, hname]
        exact createArtist_names
      exact (hnames.mono prepareAlbums_extends).mono prepareGenre_extends
  genre name hname := by
    simp only [prepareTargets, prepareGenre, hname]
    exact ⟨_, rfl, createGenre_names⟩
  albums title hname row hrow := by
    have hnames : Names cfg (prepareAlbums changes ids (prepareArtist cfg changes db).2).2 row.1
        title row.2 .album := by
      simp only [prepareTargets, prepareAlbums, hname] at hrow ⊢
      exact createAlbums_names row hrow
    exact hnames.mono prepareGenre_extends

/-- The album of a Track is found or created under its album artist. -/
theorem albumRow_names (db : Db ρ) (t : Track ρ) {prepared : Db ρ}
    (h : Prepared cfg changes prepared targets) (htitle : changes.name .album = some title) :
    ∃ id, (albumRow changes targets db t).1 = some id ∧
      (Names cfg prepared ((db.albumArtist t).getD "") title id .album ∨
        Names cfg (albumRow changes targets db t).2 ((db.albumArtist t).getD "") title id
          .album) := by
  unfold albumRow
  rw [htitle]
  dsimp only
  split
  · next row hrow =>
    have hartist : row.1 = (db.albumArtist t).getD "" := by simpa using List.find?_some hrow
    refine ⟨row.2, rfl, .inl ?_⟩
    rw [← hartist]
    exact h.albums title htitle row (List.mem_of_find?_eq_some hrow)
  · exact ⟨_, rfl, .inr createAlbum_names⟩

theorem albumRow_extends : db.Extends (albumRow changes targets db t).2 := by
  unfold albumRow
  split
  · exact .refl db
  · dsimp only
    split
    · exact .refl db
    · exact createAlbum_extends

end IsadoraAir.BulkEdit
