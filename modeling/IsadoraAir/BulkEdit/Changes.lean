import IsadoraAir.Foundation.Dict
import Mathlib.Data.List.Sort
import Mathlib.Data.String.Basic

/-!
# Change sets and plans

`track_bulk_edit.py`: what a change set asks of a Track, and what it changes in
it. A field keeps its column, a membership its row, unless the change set names
it; the primary category is never an additional one.
-/

namespace IsadoraAir.BulkEdit

/-- The keys of `FIELDS`. -/
inductive Field where
  | artist
  | album
  | genre
  | year
  | composer
  | publisher
  | recordLabel
  | energy
  | vocalType
  | endType
  | rotationWeight
  | ready2air
  | category
  deriving DecidableEq

inductive Kind where
  | text
  | choice
  | int
  | bool
  | artist
  | album
  | genre
  | category
  deriving DecidableEq

/-- The value of a column; a `row` is named by its primary key. -/
inductive Value where
  | null
  | text (s : String)
  | int (n : ℤ)
  | bool (b : Bool)
  | row (id : ℕ)
  deriving DecidableEq

structure FieldSpec where
  kind : Kind
  clearable : Bool
  empty : Value

def Field.spec : Field → FieldSpec
  | .artist => ⟨.artist, false, .text ""⟩
  | .album => ⟨.album, true, .null⟩
  | .genre => ⟨.genre, true, .null⟩
  | .year => ⟨.int, true, .null⟩
  | .composer | .publisher | .recordLabel => ⟨.text, true, .text ""⟩
  | .energy | .vocalType => ⟨.choice, true, .text ""⟩
  | .endType => ⟨.choice, false, .text ""⟩
  | .rotationWeight => ⟨.int, false, .text ""⟩
  | .ready2air => ⟨.bool, false, .text ""⟩
  | .category => ⟨.category, true, .null⟩

/-- In display order. -/
def fields : List Field :=
  [.artist, .album, .genre, .year, .composer, .publisher, .recordLabel, .energy, .vocalType,
    .endType, .rotationWeight, .ready2air, .category]

theorem mem_fields (f : Field) : f ∈ fields := by cases f <;> decide

/-- The value of the field is looked up by its name. -/
def Field.isNamed (f : Field) : Bool :=
  f.spec.kind = .artist ∨ f.spec.kind = .album ∨ f.spec.kind = .genre

inductive Op where
  | clear
  | set (value : Value)
  deriving DecidableEq

/-- What `parse_changes` admits for a field. -/
def Op.Fits (f : Field) : Op → Prop
  | .clear => f.spec.clearable = true
  | .set value =>
    match f.spec.kind with
    | .text | .choice | .artist | .album | .genre => ∃ s, value = .text s
    | .int => ∃ n, value = .int n
    | .bool => ∃ b, value = .bool b
    | .category => ∃ id, value = .row id

/-- A change set; `none` leaves the field. -/
structure Changes where
  op : Field → Option Op
  fits : ∀ f o, op f = some o → o.Fits f
  addCategories : List ℕ
  removeCategories : List ℕ
  addHolidays : List String
  removeHolidays : List String
  categories : ∀ c ∈ addCategories, c ∉ removeCategories
  holidays : ∀ c ∈ addHolidays, c ∉ removeHolidays

/-- A Track, and what a bulk edit neither reads nor writes of it. -/
structure Track (ρ : Type) where
  filepath : String
  columns : Field → Value
  additional : List ℕ
  holidays : List String
  updatedAt : ℤ
  rest : ρ

/-- The rows; an album has a title and an album artist, a category its code. -/
structure Db (ρ : Type) where
  tracks : Dict ℕ (Track ρ)
  artists : List (ℕ × String)
  albums : List (ℕ × String × String)
  genres : List (ℕ × String)
  categories : List (ℕ × String)

variable {ρ : Type}

def Db.albumArtist (db : Db ρ) (t : Track ρ) : Option String :=
  match t.columns .album with
  | .row id => (db.albums.find? fun row => row.1 = id).map fun row => row.2.2
  | _ => none

/-- What `edit_state` digests. -/
structure EditState where
  filepath : String
  columns : List Value
  albumArtist : Option String
  additional : List ℕ
  holidays : List String
  deriving DecidableEq

/-- The outside of the code: digests, the case that `iexact` ignores, the folder of a file in the
Library. -/
structure Config where
  stateDigest : EditState → String
  idsDigest : List ℕ → String
  opsDigest : Changes → String
  nonceDigest : String → String
  upper : String → String
  categoryFolder : String → Option String

variable (cfg : Config)

def editState (db : Db ρ) (t : Track ρ) : String :=
  cfg.stateDigest ⟨t.filepath, fields.map t.columns, db.albumArtist t,
    t.additional.insertionSort (· ≤ ·), t.holidays.insertionSort (· ≤ ·)⟩

/-! ## Lookup rows -/

/-- The name that the change set asks for. -/
def Changes.name (changes : Changes) (f : Field) : Option String :=
  match changes.op f with
  | some (.set (.text name)) => some name
  | _ => none

def Db.artist? (db : Db ρ) (name : String) : Option ℕ :=
  (db.artists.find? fun row => cfg.upper row.2 = cfg.upper name).map Prod.fst

def Db.album? (db : Db ρ) (title albumArtist : String) : Option ℕ :=
  (db.albums.find? fun row => row.2 = (title, albumArtist)).map Prod.fst

def Db.genre? (db : Db ρ) (name : String) : Option ℕ :=
  (db.genres.find? fun row => row.2 = name).map Prod.fst

/-- A new primary key. -/
def nextId {β : Type} (rows : List (ℕ × β)) : ℕ := (rows.map Prod.fst).foldr max 0 + 1

/-- `Artist.get_or_create_ci` -/
def Db.createArtist (db : Db ρ) (name : String) : ℕ × Db ρ :=
  match db.artist? cfg name with
  | some id => (id, db)
  | none => (nextId db.artists, { db with artists := db.artists ++ [(nextId db.artists, name)] })

def Db.createAlbum (db : Db ρ) (title albumArtist : String) : ℕ × Db ρ :=
  match db.album? title albumArtist with
  | some id => (id, db)
  | none => (nextId db.albums,
      { db with albums := db.albums ++ [(nextId db.albums, title, albumArtist)] })

def Db.createGenre (db : Db ρ) (name : String) : ℕ × Db ρ :=
  match db.genre? name with
  | some id => (id, db)
  | none => (nextId db.genres, { db with genres := db.genres ++ [(nextId db.genres, name)] })

/-- `_Targets`, with the albums by their album artist. -/
structure Targets where
  artist : Option ℕ
  genre : Option ℕ
  albums : List (String × ℕ)

/-- The album of every album artist. -/
def Db.createAlbums (db : Db ρ) (title : String) : List String → List (String × ℕ) × Db ρ
  | [] => ([], db)
  | albumArtist :: rest =>
    let created := db.createAlbum title albumArtist
    let others := created.2.createAlbums title rest
    ((albumArtist, created.1) :: others.1, others.2)

/-- The album artists of the selected Tracks. -/
def Db.albumArtists (db : Db ρ) (ids : List ℕ) : List String :=
  ((ids.filterMap db.tracks.get?).map fun t => (db.albumArtist t).getD "").dedup.insertionSort (· ≤ ·)

def prepareArtist (changes : Changes) (db : Db ρ) : Option ℕ × Db ρ :=
  match changes.name .artist with
  | some name => (some (db.createArtist cfg name).1, (db.createArtist cfg name).2)
  | none => (none, db)

def prepareAlbums (changes : Changes) (ids : List ℕ) (db : Db ρ) : List (String × ℕ) × Db ρ :=
  match changes.name .album with
  | some title => db.createAlbums title (db.albumArtists ids)
  | none => ([], db)

def prepareGenre (changes : Changes) (db : Db ρ) : Option ℕ × Db ρ :=
  match changes.name .genre with
  | some name => (some (db.createGenre name).1, (db.createGenre name).2)
  | none => (none, db)

/-- `_prepare_targets`: the rows that the change set names, created once. -/
def prepareTargets (changes : Changes) (ids : List ℕ) (db : Db ρ) : Targets × Db ρ :=
  let artist := prepareArtist cfg changes db
  let albums := prepareAlbums changes ids artist.2
  let genre := prepareGenre changes albums.2
  (⟨artist.1, genre.1, albums.1⟩, genre.2)

/-- The rows that the named fields refer to for one Track. -/
abbrev Rows := Field → Option ℕ

/-- What a preview finds; nothing is created. -/
def foundRows (changes : Changes) (db : Db ρ) (albumArtist : String) : Rows
  | .artist => (changes.name .artist).bind (db.artist? cfg)
  | .album => (changes.name .album).bind fun title => db.album? title albumArtist
  | .genre => (changes.name .genre).bind db.genre?
  | _ => none

/-- The album of this Track: prepared, or created with it. -/
def albumRow (changes : Changes) (targets : Targets) (db : Db ρ) (t : Track ρ) :
    Option ℕ × Db ρ :=
  match changes.name .album with
  | none => (none, db)
  | some title =>
    let albumArtist := (db.albumArtist t).getD ""
    match targets.albums.find? fun row => row.1 = albumArtist with
    | some row => (some row.2, db)
    | none => (some (db.createAlbum title albumArtist).1, (db.createAlbum title albumArtist).2)

/-- What an apply uses. -/
def preparedRows (targets : Targets) (album : Option ℕ) : Rows
  | .artist => targets.artist
  | .album => album
  | .genre => targets.genre
  | _ => none

/-! ## Plans -/

structure Plan where
  columns : List (Field × Value)
  addCategories : List ℕ
  removeCategories : List ℕ
  addHolidays : List String
  removeHolidays : List String

def Plan.isEmpty (p : Plan) : Bool :=
  p.columns.isEmpty && p.addCategories.isEmpty && p.removeCategories.isEmpty &&
    p.addHolidays.isEmpty && p.removeHolidays.isEmpty

/-- The value a field is to have; `none` is a row that is yet to be created. -/
def target (rows : Rows) (f : Field) : Op → Option Value
  | .clear => some f.spec.empty
  | .set value => if f.isNamed then (rows f).map Value.row else some value

/-- The new value of a column, if it is not there already. -/
def change (changes : Changes) (rows : Rows) (t : Track ρ) (f : Field) : Option (Field × Value) :=
  (changes.op f).bind fun op =>
    if target rows f op = some (t.columns f) then none
    else some (f, (target rows f op).getD .null)

def newPrimary (changes : Changes) (rows : Rows) (t : Track ρ) : Value :=
  match changes.op .category with
  | some op => (target rows .category op).getD .null
  | none => t.columns .category

/-- The new primary category is no additional one any more. -/
def dropPrimary (t : Track ρ) (removed : List ℕ) : Value → List ℕ
  | .row c => if c ∈ t.additional ∧ c ∉ removed then [c] else []
  | _ => []

/-- `_plan` -/
def plan (changes : Changes) (rows : Rows) (t : Track ρ) : Plan :=
  let primary := newPrimary changes rows t
  let removed := changes.removeCategories.filter (· ∈ t.additional)
  { columns := fields.filterMap (change changes rows t)
    addCategories :=
      changes.addCategories.filter fun c => .row c ≠ primary ∧ c ∉ t.additional
    removeCategories := removed ++ dropPrimary t removed primary
    addHolidays := changes.addHolidays.filter (· ∉ t.holidays)
    removeHolidays := changes.removeHolidays.filter (· ∈ t.holidays) }

/-- The categories whose rows a plan needs, in the order of its lookups. -/
def lookups (changes : Changes) (p : Plan) (t : Track ρ) : List ℕ :=
  (match changes.op .category with
    | some (.set (.row c)) => [c]
    | _ => []) ++
  if p.addCategories = [] ∧ p.removeCategories = [] then []
  else t.additional ++ (t.additional.filter (· ∉ p.removeCategories) ++ p.addCategories)

/-- `targets.category` for each of them, until one does not exist. -/
def fetch (categories : List (ℕ × String)) (known : Dict ℕ String) :
    List ℕ → Bool × Dict ℕ String
  | [] => (true, known)
  | c :: rest =>
    if (known.get? c).isSome then fetch categories known rest
    else
      match categories.find? fun row => row.1 = c with
      | some row => fetch categories (known.insert c row.2) rest
      | none => (false, known)

/-- The column of a field after the plan. -/
def Plan.column (p : Plan) (t : Track ρ) (f : Field) : Value :=
  ((p.columns.find? fun item => item.1 = f).map Prod.snd).getD (t.columns f)

/-- What is written: the columns, then the memberships. -/
def Plan.write (p : Plan) (now : ℤ) (t : Track ρ) : Track ρ :=
  { t with
    columns := p.column t
    updatedAt := if p.columns = [] then t.updatedAt else now
    additional := t.additional.filter (· ∉ p.removeCategories) ++ p.addCategories
    holidays := t.holidays.filter (· ∉ p.removeHolidays) ++ p.addHolidays }

/-- The file stays in the folder of another category. -/
def folderStays (changes : Changes) (codes : Dict ℕ String) (t : Track ρ) : Bool :=
  match change changes (fun _ => none) t .category, cfg.categoryFolder t.filepath with
  | some (_, .row c), some folder => codes.get? c ≠ some folder
  | some _, some _ => true
  | _, _ => false

end IsadoraAir.BulkEdit
