import IsadoraAir.Foundation.Paging
import Mathlib.Order.Nat

/-!
# References of Tracks to files

A Track refers to a location by a path that resolves to the very file there, or by one that has
its name. One scan of the table finds the references to a location, another those to several
locations at once.
-/

namespace IsadoraAir.ActiveMessages.Retention

variable {index : Index} {before : List String} {info : Option Stat} {p : StoredPath}
  {resolved : String}

/-! ## Paths -/

/-- The device and the inode of a file. -/
structure Object where
  device : ℕ
  inode : ℕ
  deriving DecidableEq

structure Stat where
  object : Object
  isRegular : Bool
  deriving DecidableEq

/-- `missing` stands for `FileNotFoundError` and `NotADirectoryError`. -/
inductive PathError where
  | missing | osError | valueError
  deriving DecidableEq

/-- A fixed state of the file system: `os.stat`, `os.lstat` and `os.path.realpath`. -/
structure FileSystem where
  stat : String → Except PathError Stat
  lstat : String → Except PathError Stat
  realpath : String → Except PathError String

/-- `os.stat`, with `none` where the path leads nowhere. -/
def FileSystem.found (fs : FileSystem) (value : String) : Except PathError (Option Stat) :=
  match fs.stat value with
  | .ok info => .ok (some info)
  | .error .missing => .ok none
  | .error e => .error e

/-- `_identity` -/
def FileSystem.identity (fs : FileSystem) (path : String) : Except PathError (Option Object) :=
  match fs.lstat path with
  | .ok info => .ok (if info.isRegular then some info.object else none)
  | .error .valueError => .error .valueError
  | .error _ => .ok none

/-! ## Tracks -/

inductive PathField where
  | filepath | waveformPath
  deriving DecidableEq

structure Track where
  pk : ℕ
  filepath : String
  waveformPath : String
  deriving DecidableEq

/-- The table in the order of its primary key. -/
structure TrackTable where
  rows : List Track
  sorted : rows.Pairwise fun t t' => t.pk < t'.pk

inductive ReferenceKind where
  | object | name
  deriving DecidableEq

structure Reference where
  track : ℕ
  field : PathField
  kind : ReferenceKind
  deriving DecidableEq

inductive ScanError where
  | ownershipUnverifiable (track : ℕ) (field : PathField)
  | path (e : PathError)
  deriving DecidableEq

def ownershipBatch : ℕ := 2000

def Track.values (t : Track) : List (PathField × String) :=
  [(.filepath, t.filepath), (.waveformPath, t.waveformPath)]

/-- The loop that both scans make over the table; `visit` is what they do with one stored path. -/
def scan {σ : Type} (table : TrackTable)
    (visit : σ → ℕ → PathField → String → Except ScanError σ) (found : σ) : Except ScanError σ :=
  paged ownershipBatch Track.pk table.rows
    (fun found t => t.values.foldlM
      (fun found v => if v.2 = "" then return found else visit found t.pk v.1 v.2) found)
    none found

/-! ## One location -/

/-- `_reference_kind`; `none` is its empty string. -/
def referenceKind (fs : FileSystem) (value : String) (identity : Option Object)
    (names : List String) : Except PathError (Option ReferenceKind) := do
  let info ← fs.found value
  if info.any fun info => identity = some info.object then return some .object
  else
    let resolved ← fs.realpath value
    return if resolved ∈ names then some .name else none

def trackReferences (fs : FileSystem) (table : TrackTable) (location : String)
    (identity : Option Object) : Except ScanError (List Reference) := do
  let name ← (fs.realpath location).mapError .path
  scan table
    (fun found pk field value => match referenceKind fs value identity [name] with
      | .error _ => .error (.ownershipUnverifiable pk field)
      | .ok none => .ok found
      | .ok (some kind) => .ok (found ++ [⟨pk, field, kind⟩]))
    []

/-- `track_references(location, _identity(location))` -/
def ownReferences (fs : FileSystem) (table : TrackTable) (location : String) :
    Except ScanError (List Reference) := do
  let identity ← (fs.identity location).mapError .path
  trackReferences fs table location identity

/-! ## Several locations -/

structure Index where
  byName : Dict String (List String)
  byObject : Dict Object (List String)

def indexLocation (fs : FileSystem) (index : Index) (location : String) :
    Except ScanError Index := do
  let name ← (fs.realpath location).mapError .path
  let identity ← (fs.identity location).mapError .path
  return {
    byName := index.byName.push name location
    byObject := match identity with
      | none => index.byObject
      | some object => index.byObject.push object location }

/-- `found[location].append(reference)` for each of the locations. -/
def refer (reference : Reference) (locations : List String)
    (found : Dict String (List Reference)) : Dict String (List Reference) :=
  locations.foldl (fun found location => found.push location reference) found

/-- The locations at which the file of a stored path is. -/
def Index.matched (index : Index) : Option Stat → List String
  | none => []
  | some info => index.byObject.under info.object

/-- What the scan does with a stored path that was resolved; a location that it matches by object
is not matched by name as well. -/
def matchLocations (index : Index) (found : Dict String (List Reference)) (pk : ℕ)
    (field : PathField) (info : Option Stat) (resolved : String) : Dict String (List Reference) :=
  let matched := index.matched info
  let named := (index.byName.under resolved).filter fun location => location ∉ matched
  refer ⟨pk, field, .name⟩ named (refer ⟨pk, field, .object⟩ matched found)

/-- `os.stat` and `os.path.realpath` of a stored path. -/
def FileSystem.resolve (fs : FileSystem) (value : String) :
    Except PathError (Option Stat × String) := do
  let info ← fs.found value
  let resolved ← fs.realpath value
  return (info, resolved)

/-- A location is the text of its `Path`. -/
def referencesByLocation (fs : FileSystem) (table : TrackTable) (locations : List String) :
    Except ScanError (Dict String (List Reference)) := do
  let found := Dict.ofList (locations.map fun location => (location, []))
  if locations = [] then return found
  else
    let index ← locations.foldlM (indexLocation fs) ⟨.empty, .empty⟩
    scan table
      (fun found pk field value => match fs.resolve value with
        | .error _ => .error (.ownershipUnverifiable pk field)
        | .ok (info, resolved) => .ok (matchLocations index found pk field info resolved))
      found

/-! ## The stored paths -/

structure StoredPath where
  track : ℕ
  field : PathField
  value : String

/-- The paths that are not empty, in the order of the scan. -/
def TrackTable.stored (table : TrackTable) : List StoredPath :=
  table.rows.flatMap fun t =>
    (t.values.filter fun v => v.2 ≠ "").map fun v => ⟨t.pk, v.1, v.2⟩

section Loops

variable {α β ε σ : Type} {xs : List α} {f : σ → α → Except ε σ}

theorem ok_bind (a : α) (f : α → Except ε β) : ((.ok a : Except ε α) >>= f) = f a := rfl

theorem foldlM_flatMap {f : σ → β → Except ε σ} {g : α → List β} (xs : List α) (s : σ) :
    (xs.flatMap g).foldlM f s = xs.foldlM (fun s x => (g x).foldlM f s) s := by
  induction xs generalizing s with
  | nil => rfl
  | cons x xs ih =>
    rw [List.flatMap_cons, List.foldlM_append, List.foldlM_cons]
    exact bind_congr fun s' => ih s'

/-- A loop that nowhere raises. -/
theorem foldlM_ok {g : σ → α → σ}
    (h : ∀ x ∈ xs, ∀ s, f s x = .ok (g s x)) (s : σ) : xs.foldlM f s = .ok (xs.foldl g s) := by
  induction xs generalizing s with
  | nil => rfl
  | cons x xs ih =>
    obtain ⟨hx, hxs⟩ := List.forall_mem_cons.mp h
    rw [List.foldlM_cons, hx s]
    exact ih hxs (g s x)

/-- A loop that raises at one of the items, if not before. -/
theorem foldlM_error {x : α} (hx : x ∈ xs)
    (h : ∀ s, ∃ e, f s x = .error e) (s : σ) : ∃ e, xs.foldlM f s = .error e := by
  induction xs generalizing s with
  | nil => cases hx
  | cons y ys ih =>
    rw [List.foldlM_cons]
    cases hy : f s y with
    | error e => exact ⟨e, rfl⟩
    | ok s' =>
      rcases List.mem_cons.mp hx with rfl | hx
      · obtain ⟨e, he⟩ := h s
        rw [hy] at he
        cases he
      · exact ih hx s'

end Loops

theorem scan_eq {σ : Type} (table : TrackTable)
    (visit : σ → ℕ → PathField → String → Except ScanError σ) (found : σ) :
    scan table visit found =
      table.stored.foldlM (fun found p => visit found p.track p.field p.value) found := by
  rw [scan, paged_eq_foldlM (by decide) table.sorted]
  unfold TrackTable.stored beyond
  rw [foldlM_flatMap]
  congr 1
  funext found t
  rw [List.foldlM_map, List.foldlM_filter]
  congr 1
  funext found v
  by_cases hempty : v.2 = "" <;> simp [hempty]

/-! ## The scan for one location -/

section Single

variable {fs : FileSystem} {table : TrackTable} {location name : String} {identity : Option Object}

/-- The reference that a stored path is, to the file `identity` or to `name`. -/
def referenceAt (fs : FileSystem) (identity : Option Object) (name : String) (p : StoredPath) :
    Option Reference :=
  match referenceKind fs p.value identity [name] with
  | .ok (some kind) => some ⟨p.track, p.field, kind⟩
  | _ => none

/-- The references to a location, where its scan does not raise. -/
def referencesAt (fs : FileSystem) (table : TrackTable) (identity : Option Object) (name : String) :
    List Reference :=
  table.stored.filterMap (referenceAt fs identity name)

theorem foldl_toList {α β : Type} (f : α → Option β) (xs : List α) (s : List β) :
    xs.foldl (fun s x => s ++ (f x).toList) s = s ++ xs.filterMap f := by
  induction xs generalizing s with
  | nil => simp
  | cons x xs ih =>
    rw [List.foldl_cons, ih, List.filterMap_cons]
    cases f x <;> simp

theorem trackReferences_ok (hname : fs.realpath location = .ok name)
    (h : ∀ p ∈ table.stored, ∃ kind, referenceKind fs p.value identity [name] = .ok kind) :
    trackReferences fs table location identity = .ok (referencesAt fs table identity name) := by
  unfold trackReferences referencesAt
  rw [hname, Except.mapError, ok_bind, scan_eq,
    foldlM_ok (g := fun s p => s ++ (referenceAt fs identity name p).toList),
    foldl_toList, List.nil_append]
  intro p hp s
  obtain ⟨kind, hkind⟩ := h p hp
  unfold referenceAt
  rw [hkind]
  cases kind <;> simp

theorem trackReferences_error (hname : fs.realpath location = .ok name) (hp : p ∈ table.stored)
    {e : PathError} (h : referenceKind fs p.value identity [name] = .error e) :
    ∃ e, trackReferences fs table location identity = .error e := by
  unfold trackReferences
  rw [hname, Except.mapError, ok_bind, scan_eq]
  exact foldlM_error hp (fun s => ⟨.ownershipUnverifiable p.track p.field, by rw [h]⟩) []

/-- A location that even its own scan cannot decide. -/
def Unverifiable (fs : FileSystem) (table : TrackTable) (location : String) : Prop :=
  (∃ e, fs.realpath location = .error e) ∨ (∃ e, fs.identity location = .error e) ∨
    ∃ name identity, fs.realpath location = .ok name ∧ fs.identity location = .ok identity ∧
      ∃ p ∈ table.stored, ∃ e, referenceKind fs p.value identity [name] = .error e

/-- A location that its own scan decides: its name, its file, and what every stored path is. -/
structure Verifiable (fs : FileSystem) (table : TrackTable) (location : String)
    (identity : Option Object) (name : String) : Prop where
  named : fs.realpath location = .ok name
  identified : fs.identity location = .ok identity
  kinds : ∀ p ∈ table.stored, ∃ kind, referenceKind fs p.value identity [name] = .ok kind

theorem verifiable_of_not (h : ¬Unverifiable fs table location) :
    ∃ identity name, Verifiable fs table location identity name := by
  cases hname : fs.realpath location with
  | error e => exact absurd (.inl ⟨e, hname⟩) h
  | ok name =>
    cases hidentity : fs.identity location with
    | error e => exact absurd (.inr (.inl ⟨e, hidentity⟩)) h
    | ok identity =>
      refine ⟨identity, name, hname, hidentity, fun p hp => ?_⟩
      cases hkind : referenceKind fs p.value identity [name] with
      | ok kind => exact ⟨kind, rfl⟩
      | error e =>
        exact absurd (.inr (.inr ⟨name, identity, hname, hidentity, p, hp, e, hkind⟩)) h

theorem Verifiable.ownReferences (h : Verifiable fs table location identity name) :
    ownReferences fs table location = .ok (referencesAt fs table identity name) := by
  unfold Retention.ownReferences
  rw [h.identified]
  exact trackReferences_ok h.named h.kinds

theorem ownReferences_error :
    (∃ e, ownReferences fs table location = .error e) ↔ Unverifiable fs table location := by
  constructor
  · rintro ⟨e, he⟩
    by_contra hnot
    obtain ⟨identity, name, hverifiable⟩ := verifiable_of_not hnot
    rw [hverifiable.ownReferences] at he
    cases he
  · rintro (⟨e, he⟩ | ⟨e, he⟩ | ⟨name, identity, hname, hidentity, p, hp, e, he⟩)
    · unfold ownReferences trackReferences
      rw [he]
      cases fs.identity location with
      | error e' => exact ⟨.path e', rfl⟩
      | ok identity => exact ⟨.path e, rfl⟩
    · unfold ownReferences
      rw [he]
      exact ⟨.path e, rfl⟩
    · unfold ownReferences
      rw [hidentity]
      exact trackReferences_error hname hp he

end Single

/-! ## The scan for several locations -/

section Several

variable {fs : FileSystem} {table : TrackTable} {locations : List String} {location name : String}

/-- The locations that have this name. -/
def named (fs : FileSystem) (locations : List String) (name : String) : List String :=
  locations.filter fun location => (fs.realpath location).toOption = some name

/-- The locations at which this file is. -/
def holding (fs : FileSystem) (locations : List String) (object : Object) : List String :=
  locations.filter fun location => (fs.identity location).toOption = some (some object)

/-- The index has the locations under their names and under their files. -/
structure Index.Covers (index : Index) (fs : FileSystem) (locations : List String) : Prop where
  byName : ∀ name, index.byName.under name = named fs locations name
  byObject : ∀ object, index.byObject.under object = holding fs locations object

theorem indexLocation_covers {identity : Option Object} (h : index.Covers fs before)
    (hname : fs.realpath location = .ok name) (hidentity : fs.identity location = .ok identity) :
    ∃ index', indexLocation fs index location = .ok index' ∧
      index'.Covers fs (before ++ [location]) := by
  unfold indexLocation
  rw [hname, hidentity]
  refine ⟨_, rfl, fun other => ?_, fun object => ?_⟩
  · rw [Dict.under_push, h.byName, named, named, List.filter_append]
    by_cases hother : other = name
    · subst hother
      simp [hname, Except.toOption]
    · simp [hname, Except.toOption, hother, Ne.symm hother]
  · rw [holding, List.filter_append, ← holding]
    cases identity with
    | none => simp [hidentity, Except.toOption, h.byObject]
    | some own =>
      rw [Dict.under_push, h.byObject]
      by_cases hother : object = own
      · subst hother
        simp [hidentity, Except.toOption]
      · simp [hidentity, Except.toOption, hother, Ne.symm hother]

theorem indexLocations_covers (rest : List String)
    (h : ∀ location ∈ rest, ¬Unverifiable fs table location) (hindex : index.Covers fs before) :
    ∃ index', rest.foldlM (indexLocation fs) index = .ok index' ∧
      index'.Covers fs (before ++ rest) := by
  induction rest generalizing index before with
  | nil => exact ⟨index, rfl, by simpa using hindex⟩
  | cons location rest ih =>
    obtain ⟨hlocation, hrest⟩ := List.forall_mem_cons.mp h
    obtain ⟨identity, name, hverifiable⟩ := verifiable_of_not hlocation
    obtain ⟨index', hrun, hcovers⟩ :=
      indexLocation_covers hindex hverifiable.named hverifiable.identified
    obtain ⟨index'', hrun', hcovers'⟩ := ih hrest hcovers
    refine ⟨index'', ?_, by simpa using hcovers'⟩
    rw [List.foldlM_cons, hrun]
    exact hrun'

theorem count_named (h : fs.realpath location = .ok name) :
    (named fs locations resolved).count location =
      if name = resolved then locations.count location else 0 := by
  unfold named
  split
  · next heq => exact List.count_filter (by simp [h, Except.toOption, heq])
  · next hne =>
    refine List.count_eq_zero_of_not_mem fun hmem => hne ?_
    simpa [h, Except.toOption] using (List.mem_filter.mp hmem).2

theorem count_holding {identity : Option Object} {object : Object}
    (h : fs.identity location = .ok identity) :
    (holding fs locations object).count location =
      if identity = some object then locations.count location else 0 := by
  unfold holding
  split
  · next heq => exact List.count_filter (by simp [h, Except.toOption, heq])
  · next hne =>
    refine List.count_eq_zero_of_not_mem fun hmem => hne ?_
    simpa [h, Except.toOption] using (List.mem_filter.mp hmem).2

/-- A stored path that both steps of the scan resolve. -/
theorem referenceKind_of_resolve {value : String}
    {identity : Option Object} (h : fs.resolve value = .ok (info, resolved)) :
    referenceKind fs value identity [name] =
      .ok (if info.any fun info => identity = some info.object then some .object
        else if name = resolved then some .name else none) := by
  unfold FileSystem.resolve at h
  unfold referenceKind
  cases hfound : fs.found value with
  | error e =>
    rw [hfound] at h
    cases h
  | ok info' =>
    rw [hfound, ok_bind] at h
    cases hpath : fs.realpath value with
    | error e =>
      rw [hpath] at h
      cases h
    | ok resolved' =>
      rw [hpath, ok_bind] at h
      cases h
      simp only [ok_bind, List.mem_singleton, eq_comm (a := resolved)]
      split <;> rfl

/-- A stored path is added to the references of a location as often as the location is given. -/
theorem under_matchLocations (hindex : index.Covers fs locations) {identity : Option Object}
    (hname : fs.realpath location = .ok name) (hidentity : fs.identity location = .ok identity)
    (h : fs.resolve p.value = .ok (info, resolved)) (found : Dict String (List Reference)) :
    (matchLocations index found p.track p.field info resolved).under location =
      found.under location ++
        (referenceAt fs identity name p).toList.flatMap
          (List.replicate (locations.count location)) := by
  unfold matchLocations refer referenceAt
  rw [referenceKind_of_resolve h]
  dsimp only
  rw [hindex.byName]
  have hcount : (index.matched info).count location =
      if (info.any fun info => identity = some info.object) = true then locations.count location
      else 0 := by
    cases info with
    | none => rfl
    | some info =>
      rw [Index.matched, hindex.byObject, count_holding hidentity]
      simp
  generalize index.matched info = matched at hcount ⊢
  rw [Dict.under_pushes, Dict.under_pushes, List.append_assoc, hcount]
  by_cases hobject : (info.any fun info => identity = some info.object) = true
  · have hnone : ((named fs locations resolved).filter (· ∉ matched)).count location = 0 := by
      refine List.count_eq_zero_of_not_mem fun hmem => ?_
      obtain ⟨hnamed, hout⟩ := List.mem_filter.mp hmem
      have hzero := List.count_eq_zero_of_not_mem (of_decide_eq_true hout)
      rw [hcount, if_pos hobject, List.count_eq_zero] at hzero
      exact hzero (List.mem_filter.mp hnamed).1
    rw [hnone, if_pos hobject, if_pos hobject]
    simp
  · have hout : location ∉ matched := by
      rw [if_neg hobject] at hcount
      exact List.count_eq_zero.mp hcount
    rw [List.count_filter (by simpa using hout), count_named hname, if_neg hobject, if_neg hobject]
    by_cases heq : name = resolved <;> simp [heq]

/-- No references are known at the start. -/
theorem get?_start (locations : List String) (h : location ∈ locations) :
    (Dict.ofList (locations.map fun location => (location, ([] : List Reference)))).get? location =
      some [] := by
  have hgeneral : ∀ d : Dict String (List Reference),
      ((locations.map fun location => (location, ([] : List Reference))).foldl
        (fun d x => d.insert x.1 x.2) d).get? location =
        if location ∈ locations then some [] else d.get? location := by
    clear h
    induction locations with
    | nil => simp
    | cons other locations ih =>
      intro d
      rw [List.map_cons, List.foldl_cons, ih, Dict.get?_insert]
      by_cases heq : location = other <;> simp [heq]
  rw [Dict.ofList, hgeneral, if_pos h]

/-- A path that the scan for several locations cannot decide. -/
def Unresolvable (fs : FileSystem) (table : TrackTable) : Prop :=
  ∃ p ∈ table.stored, ∃ e, fs.resolve p.value = .error e

/-- One turn of the scan, where it does not raise. -/
def note (fs : FileSystem) (index : Index) (found : Dict String (List Reference)) (p : StoredPath) :
    Dict String (List Reference) :=
  match fs.resolve p.value with
  | .error _ => found
  | .ok (info, resolved) => matchLocations index found p.track p.field info resolved

theorem get?_notes (hindex : index.Covers fs locations)
    {identity : Option Object} (h : Verifiable fs table location identity name)
    {ps : List StoredPath} (hps : ∀ p ∈ ps, ∃ result, fs.resolve p.value = .ok result)
    {found : Dict String (List Reference)} (hfound : found.get? location ≠ none) :
    (ps.foldl (note fs index) found).get? location = some (found.under location ++
      (ps.filterMap (referenceAt fs identity name)).flatMap
        (List.replicate (locations.count location))) := by
  induction ps generalizing found with
  | nil => simpa using Dict.get?_eq_under hfound
  | cons p ps ih =>
    obtain ⟨⟨⟨info, resolved⟩, hp⟩, hps⟩ := List.forall_mem_cons.mp hps
    have hrun : note fs index found p =
        matchLocations index found p.track p.field info resolved := by rw [note, hp]
    have hkept : (matchLocations index found p.track p.field info resolved).get? location ≠ none :=
      Dict.get?_pushes_ne_none (Dict.get?_pushes_ne_none hfound)
    rw [List.foldl_cons, hrun, ih hps hkept, List.filterMap_cons,
      under_matchLocations hindex h.named h.identified hp, List.append_assoc]
    cases referenceAt fs identity name p <;> simp

/-- The scan returns the references to each location, as often as it is given. -/
theorem referencesByLocation_ok (hne : locations ≠ [])
    (hlocations : ∀ location ∈ locations, ¬Unverifiable fs table location)
    (hresolve : ¬Unresolvable fs table) :
    ∃ found, referencesByLocation fs table locations = .ok found ∧
      ∀ location ∈ locations, ∀ identity name, Verifiable fs table location identity name →
        found.get? location = some ((referencesAt fs table identity name).flatMap
          (List.replicate (locations.count location))) := by
  have hempty : (⟨.empty, .empty⟩ : Index).Covers fs [] := ⟨fun _ => rfl, fun _ => rfl⟩
  obtain ⟨index, hindex, hcovers⟩ := indexLocations_covers locations hlocations hempty
  have hresolved : ∀ p ∈ table.stored, ∃ result, fs.resolve p.value = .ok result := by
    intro p hp
    cases hp' : fs.resolve p.value with
    | error e => exact absurd ⟨p, hp, e, hp'⟩ hresolve
    | ok result => exact ⟨result, rfl⟩
  refine ⟨table.stored.foldl (note fs index)
    (Dict.ofList (locations.map fun location => (location, []))), ?_, ?_⟩
  · unfold referencesByLocation
    rw [if_neg hne, hindex, ok_bind, scan_eq]
    refine foldlM_ok (fun p hp found => ?_) _
    obtain ⟨result, hp'⟩ := hresolved p hp
    rw [note, hp']
  · intro location hlocation identity name hverifiable
    have hfound := get?_start locations hlocation
    rw [get?_notes hcovers hverifiable hresolved (by simp [hfound])]
    simp [Dict.under, hfound, referencesAt]

theorem referencesByLocation_error (hne : locations ≠ []) (h : Unresolvable fs table) :
    ∃ e, referencesByLocation fs table locations = .error e := by
  obtain ⟨p, hp, e, he⟩ := h
  unfold referencesByLocation
  rw [if_neg hne]
  cases locations.foldlM (indexLocation fs) ⟨.empty, .empty⟩ with
  | error e => exact ⟨e, rfl⟩
  | ok index =>
    rw [ok_bind, scan_eq]
    exact foldlM_error hp (fun s => ⟨.ownershipUnverifiable p.track p.field, by rw [he]⟩) _

/-- What one location cannot decide, several cannot. -/
theorem referencesByLocation_unverifiable (hmem : location ∈ locations)
    (h : Unverifiable fs table location) :
    ∃ e, referencesByLocation fs table locations = .error e := by
  have hne : locations ≠ [] := List.ne_nil_of_mem hmem
  have hindex (e : ScanError) (hraises : ∀ index, indexLocation fs index location = .error e) :
      ∃ e, referencesByLocation fs table locations = .error e := by
    obtain ⟨e', he'⟩ := foldlM_error hmem (fun index => ⟨e, hraises index⟩) ⟨.empty, .empty⟩
    unfold referencesByLocation
    rw [if_neg hne, he']
    exact ⟨e', rfl⟩
  rcases h with ⟨e, he⟩ | ⟨e, he⟩ | ⟨name, identity, -, -, p, hp, e, he⟩
  · refine hindex (.path e) fun index => ?_
    rw [indexLocation, he]
    rfl
  · cases hname : fs.realpath location with
    | error e' =>
      refine hindex (.path e') fun index => ?_
      rw [indexLocation, hname]
      rfl
    | ok name =>
      refine hindex (.path e) fun index => ?_
      rw [indexLocation, hname, he]
      rfl
  · refine referencesByLocation_error hne ⟨p, hp, ?_⟩
    cases hresolve : fs.resolve p.value with
    | error e' => exact ⟨e', rfl⟩
    | ok result =>
      obtain ⟨info, resolved⟩ := result
      rw [referenceKind_of_resolve hresolve] at he
      cases he

/-- What the scan for several locations promises: it raises only where a scan for one of them does,
and otherwise returns what the scan for each of them does. -/
structure Agrees (fs : FileSystem) (table : TrackTable) (locations : List String) : Prop where
  raises : ∀ e, referencesByLocation fs table locations = .error e →
    ∃ location ∈ locations, ∃ e, ownReferences fs table location = .error e
  returns : ∀ found, referencesByLocation fs table locations = .ok found →
    ∀ location ∈ locations, ∃ references,
      ownReferences fs table location = .ok references ∧ found.get? location = some references

/-- No stored path refers to the location. -/
def Unreferenced (fs : FileSystem) (table : TrackTable) (location : String) : Prop :=
  ∀ identity name, Verifiable fs table location identity name →
    ∀ p ∈ table.stored, referenceKind fs p.value identity [name] = .ok none

theorem Verifiable.referencesAt_eq_nil {identity : Option Object}
    (h : Verifiable fs table location identity name) :
    referencesAt fs table identity name = [] ↔ Unreferenced fs table location := by
  unfold referencesAt
  rw [List.filterMap_eq_nil_iff]
  constructor
  · intro hnone identity' name' h' p hp
    have hname : name' = name := Except.ok.inj (h'.named.symm.trans h.named)
    have hidentity : identity' = identity := Except.ok.inj (h'.identified.symm.trans h.identified)
    subst hname hidentity
    obtain ⟨kind, hkind⟩ := h.kinds p hp
    have hp' := hnone p hp
    rw [referenceAt, hkind] at hp'
    cases kind with
    | none => exact hkind
    | some kind => cases hp'
  · intro hnone p hp
    rw [referenceAt, hnone identity name h p hp]

theorem length_flatMap_replicate {α : Type} (n : ℕ) (xs : List α) :
    (xs.flatMap (List.replicate n)).length = xs.length * n := by
  induction xs with
  | nil => simp
  | cons x xs ih =>
    rw [List.flatMap_cons, List.length_append, ih, List.length_replicate, List.length_cons,
      Nat.succ_mul, Nat.add_comm]

theorem flatMap_replicate_eq_self {α : Type} {n : ℕ} {xs : List α} :
    xs.flatMap (List.replicate n) = xs ↔ xs = [] ∨ n = 1 := by
  constructor
  · intro h
    have hlength := congrArg List.length h
    rw [length_flatMap_replicate] at hlength
    cases xs with
    | nil => exact .inl rfl
    | cons x xs =>
      have hpos : 0 < (x :: xs).length := by simp
      exact .inr (Nat.eq_of_mul_eq_mul_left hpos (hlength.trans (Nat.mul_one _).symm))
  · rintro (rfl | rfl)
    · rfl
    · exact List.flatMap_singleton' xs

/-- The scan for several locations agrees with the scans for each of them exactly when there is
none, when one of them cannot be decided alone, or when all stored paths can be resolved and no
location that is given more than once is referred to. -/
theorem referencesByLocation_agrees_iff (fs : FileSystem) (table : TrackTable)
    (locations : List String) :
    Agrees fs table locations ↔
      locations = [] ∨ (∃ location ∈ locations, Unverifiable fs table location) ∨
        ¬Unresolvable fs table ∧
          ∀ location ∈ locations, locations.count location ≠ 1 →
            Unreferenced fs table location := by
  by_cases hne : locations = []
  · subst hne
    refine ⟨fun _ => .inl rfl, fun _ => ⟨fun e he => ?_, fun found _ location h => ?_⟩⟩
    · cases he
    · cases h
  by_cases hdecided : ∃ location ∈ locations, Unverifiable fs table location
  · refine ⟨fun _ => .inr (.inl hdecided), fun _ => ?_⟩
    obtain ⟨location, hmem, hunverifiable⟩ := hdecided
    obtain ⟨e, he⟩ := referencesByLocation_unverifiable hmem hunverifiable
    refine ⟨fun _ _ => ⟨location, hmem, ownReferences_error.mpr hunverifiable⟩, fun found h => ?_⟩
    rw [he] at h
    cases h
  have hlocations : ∀ location ∈ locations, ¬Unverifiable fs table location :=
    fun location hmem h => hdecided ⟨location, hmem, h⟩
  have hcondition : (locations = [] ∨ (∃ location ∈ locations, Unverifiable fs table location) ∨
      ¬Unresolvable fs table ∧ ∀ location ∈ locations, locations.count location ≠ 1 →
        Unreferenced fs table location) ↔
      ¬Unresolvable fs table ∧ ∀ location ∈ locations, locations.count location ≠ 1 →
        Unreferenced fs table location := by
    simp [hne, hdecided]
  rw [hcondition]
  by_cases hresolve : Unresolvable fs table
  · refine ⟨fun h => ?_, fun h => absurd hresolve h.1⟩
    obtain ⟨e, he⟩ := referencesByLocation_error hne hresolve
    obtain ⟨location, hmem, hraises⟩ := h.raises e he
    exact absurd (ownReferences_error.mp hraises) (hlocations location hmem)
  · obtain ⟨found, hfound, hreturns⟩ := referencesByLocation_ok hne hlocations hresolve
    constructor
    · refine fun h => ⟨hresolve, fun location hmem hrepeated => ?_⟩
      obtain ⟨identity, name, hverifiable⟩ := verifiable_of_not (hlocations location hmem)
      obtain ⟨references, hown, hget⟩ := h.returns found hfound location hmem
      rw [hverifiable.ownReferences] at hown
      cases hown
      rw [hreturns location hmem identity name hverifiable] at hget
      rcases flatMap_replicate_eq_self.mp (Option.some.inj hget) with hnone | hone
      · exact hverifiable.referencesAt_eq_nil.mp hnone
      · exact absurd hone hrepeated
    · rintro ⟨-, hunreferenced⟩
      refine ⟨fun e he => ?_, fun found' h location hmem => ?_⟩
      · rw [hfound] at he
        cases he
      · rw [hfound] at h
        cases h
        obtain ⟨identity, name, hverifiable⟩ := verifiable_of_not (hlocations location hmem)
        refine ⟨_, hverifiable.ownReferences, ?_⟩
        rw [hreturns location hmem identity name hverifiable, flatMap_replicate_eq_self.mpr]
        by_cases hcount : locations.count location = 1
        · exact .inr hcount
        · exact .inl (hverifiable.referencesAt_eq_nil.mpr (hunreferenced location hmem hcount))

/-- Every path is the file it names, and one Track has the path `/a`. -/
def sampleFiles : FileSystem where
  stat := fun _ => .ok ⟨⟨1, 2⟩, true⟩
  lstat := fun _ => .ok ⟨⟨1, 2⟩, true⟩
  realpath := .ok

def sampleTracks : TrackTable := ⟨[⟨1, "/a", ""⟩], by simp⟩

/-- A location that is given twice has each of its references twice. -/
theorem referencesByLocation_repeated : ¬Agrees sampleFiles sampleTracks ["/a", "/a"] := by
  intro h
  have hrun : ∃ found, referencesByLocation sampleFiles sampleTracks ["/a", "/a"] = .ok found ∧
      found.get? "/a" = some [⟨1, .filepath, .object⟩, ⟨1, .filepath, .object⟩] := by
    unfold referencesByLocation
    simp only [scan_eq]
    exact ⟨_, rfl, by decide⟩
  have hown : ownReferences sampleFiles sampleTracks "/a" = .ok [⟨1, .filepath, .object⟩] := by
    unfold ownReferences trackReferences
    simp only [scan_eq]
    rfl
  obtain ⟨found, hfound, hget⟩ := hrun
  obtain ⟨references, hreferences, hget'⟩ := h.returns found hfound "/a" (by simp)
  rw [hown] at hreferences
  cases hreferences
  rw [hget] at hget'
  cases hget'

end Several

end IsadoraAir.ActiveMessages.Retention
