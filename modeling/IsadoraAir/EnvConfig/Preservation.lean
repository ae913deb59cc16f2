import IsadoraAir.EnvConfig.Update

/-!
# What an update of the environment file preserves

A successful update gives each named key its new value and every other key the
value it had, and a repetition has nothing to do. Whether every other line
keeps its bytes depends on the ends of the lines: the update of managed values
rewrites carriage returns, the password rewriting takes them for content.
-/

namespace IsadoraAir.EnvConfig

open Text

variable {path : Entry} {after : FileSystem} {fault : Option WriteFault}
  {data : ByteArray} {mode : Nat} {text : Text}

/-- The text that the file at a path holds; a missing file holds none. -/
def Entry.contents : Entry → Option Text
  | .absent => some []
  | .dangling => some []
  | .file data _ => decode data
  | .link _ => none
  | .other _ => none

/-- The lines of a file that are not the active assignment of a named key. -/
def otherLines (names : List Text) (text : Text) : List Line :=
  (universalLines text).filter fun line => ∀ key ∈ names, activeKey line.text ≠ some key

/-- The same bytes, but for a line feed that the last line did not have. -/
def Unchanged (old new : Line) : Prop :=
  old.text = new.text ∧ (old.ending = new.ending ∨ (old.ending = .absent ∧ new.ending = .lf))

/-- What an update promises of the file before and after it. -/
structure Preserves (values : Dict Text Text) (old new : Text) : Prop where
  named : ∀ key raw, values.get? key = some raw → (repositoryData new).get? key = some raw
  others : ∀ key, key ∉ values.keys →
    (repositoryData new).get? key = (repositoryData old).get? key
  lines : List.Forall₂ Unchanged (otherLines values.keys old) (otherLines values.keys new)

/-! ## What the checks leave -/

theorem mapM_eq_ok {α β ε : Type} {f : α → Except ε β} {xs : List α} {ys : List β} :
    xs.mapM f = .ok ys ↔ List.Forall₂ (fun x y => f x = .ok y) xs ys := by
  induction xs generalizing ys with
  | nil => cases ys <;> simp [pure, Except.pure]
  | cons x xs ih =>
    rw [List.mapM_cons, bind_eq_ok]
    simp only [bind_eq_ok, ih]
    constructor
    · rintro ⟨y, hy, more, hmore, heq⟩
      cases heq
      exact .cons hy hmore
    · rintro (_ | ⟨hy, hmore⟩)
      exact ⟨_, hy, _, hmore, rfl⟩

/-- An item of the update and what the encoder made of it. -/
def EncodedAs (item encoded : Text × Text) : Prop :=
  item.1 = encoded.1 ∧ encodeEnvValue item.2 = .ok encoded.2

theorem encodeValues_eq_ok {s : Surroundings} {values : Dict Text Text}
    {encoded : List (Text × Text)} (h : encodeValues s values = .ok encoded) :
    (∀ key ∈ values.keys, key ∈ managedSettings) ∧
      List.Forall₂ EncodedAs values.items encoded := by
  simp only [encodeValues, bind_eq_ok, raiseFor_eq_ok, mapM_eq_ok] at h
  obtain ⟨-, hkeys, -, -, hencoded⟩ := h
  refine ⟨by simpa using hkeys, hencoded.imp fun item pair hpair => ?_⟩
  obtain ⟨value, hvalue, heq⟩ := hpair
  cases heq
  exact ⟨rfl, hvalue⟩

section Encoding

variable {items encoded : List (Text × Text)}

theorem keys_of_encodedAs (h : List.Forall₂ EncodedAs items encoded) :
    encoded.map Prod.fst = items.map Prod.fst := by
  have hmap : List.Forall₂ (· = ·) (items.map Prod.fst) (encoded.map Prod.fst) := by
    rw [List.forall₂_map_left_iff, List.forall₂_map_right_iff]
    exact h.imp fun item pair hpair => hpair.1
  exact (List.forall₂_eq_eq_eq ▸ hmap).symm

theorem exists_item_of_encodedAs (h : List.Forall₂ EncodedAs items encoded)
    {pair : Text × Text} (hpair : pair ∈ encoded) : ∃ item ∈ items, EncodedAs item pair := by
  induction h with
  | nil => simp at hpair
  | cons hfirst hrest ih =>
    rcases List.mem_cons.mp hpair with rfl | hmem
    · exact ⟨_, by simp, hfirst⟩
    · obtain ⟨item, hitem, heq⟩ := ih hmem
      exact ⟨item, by simp [hitem], heq⟩

theorem exists_encoded_of_item (h : List.Forall₂ EncodedAs items encoded)
    {item : Text × Text} (hitem : item ∈ items) : ∃ pair ∈ encoded, EncodedAs item pair := by
  induction h with
  | nil => simp at hitem
  | cons hfirst hrest ih =>
    rcases List.mem_cons.mp hitem with rfl | hmem
    · exact ⟨_, by simp, hfirst⟩
    · obtain ⟨pair, hpair, heq⟩ := ih hmem
      exact ⟨pair, by simp [hpair], heq⟩

end Encoding

/-- The outcome of everything before the write. -/
structure PreparedFrom (s : Surroundings) (fs : FileSystem) (values : Dict Text Text)
    (encoded : List (Text × Text)) (prepared : Prepared) : Prop where
  encodes : encodeValues s values = .ok encoded
  locked : s.lockFault = none
  settled : s.rotationPending = some false
  reads : readOriginal s fs.env = .ok (prepared.originalText, prepared.originalMode)
  once : ∀ key ∈ values.keys,
    (activeLineIndices (parseLines prepared.originalText) key).length ≤ 1
  written : (prepared.pairs, prepared.changedKeys) =
    writeAssignments (parseLines prepared.originalText) encoded

theorem prepareUpdate_eq_ok {s : Surroundings} {fs : FileSystem} {values : Dict Text Text}
    {prepared : Prepared} :
    prepareUpdate s fs values = .ok prepared ↔
      ∃ encoded, PreparedFrom s fs values encoded prepared := by
  simp only [prepareUpdate, bind_eq_ok, mapError_eq_ok, raiseFor_eq_ok, orRaise_eq_ok,
    raiseIf_eq_ok]
  constructor
  · rintro ⟨encoded, hencodes, -, hlock, pending, hpending, -, hsettled, original, hread, -, honce,
      heq⟩
    cases heq
    refine ⟨encoded, hencodes, hlock, ?_, hread, ?_, rfl⟩
    · simpa using hpending.trans (congrArg some (by simpa using hsettled))
    · simpa using honce
  · rintro ⟨encoded, h⟩
    refine ⟨encoded, h.encodes, (), h.locked, false, h.settled, (), by simp, _, h.reads, (), ?_, ?_⟩
    · simpa using h.once
    · rw [← h.written]
      rfl

theorem readOriginal_eq_ok {s : Surroundings} {entry : Entry} {original : Text × Nat}
    (h : readOriginal s entry = .ok original) :
    s.readFault = none ∧ (∀ mode, entry ≠ .link mode) ∧ (∀ mode, entry ≠ .other mode) ∧
      ∃ text, entry.contents = some text ∧ original.1 = translate text := by
  unfold readOriginal at h
  split at h
  · cases h
  · cases h
    exact ⟨‹_›, nofun, nofun, [], rfl, rfl⟩
  · cases h
    exact ⟨‹_›, nofun, nofun, [], rfl, rfl⟩
  · cases h
  · cases h
  · rename_i data mode hfault
    cases hdecode : decode data with
    | none => simp [hdecode] at h
    | some text =>
      simp only [hdecode, Option.elim_some, Except.ok.injEq] at h
      subst h
      exact ⟨hfault, nofun, nofun, text, hdecode, rfl⟩

section Prepared

variable {s : Surroundings} {fs : FileSystem} {values : Dict Text Text}
  {encoded : List (Text × Text)} {prepared : Prepared}

theorem PreparedFrom.encodedAs (h : PreparedFrom s fs values encoded prepared) :
    List.Forall₂ EncodedAs values.items encoded :=
  (encodeValues_eq_ok h.encodes).2

theorem PreparedFrom.keys (h : PreparedFrom s fs values encoded prepared) :
    encoded.map Prod.fst = values.keys :=
  keys_of_encodedAs h.encodedAs

theorem PreparedFrom.plainKey (h : PreparedFrom s fs values encoded prepared) {key : Text}
    (hkey : key ∈ values.keys) : PlainKey key :=
  plainKey_managedSettings key ((encodeValues_eq_ok h.encodes).1 key hkey)

theorem PreparedFrom.updatable (h : PreparedFrom s fs values encoded prepared) :
    Updatable (feedLines prepared.originalText) encoded := by
  have hscan := scanned_parseLines prepared.originalText
  have hmem : ∀ pair ∈ encoded, pair.1 ∈ values.keys := by
    intro pair hpair
    rw [← h.keys]
    exact List.mem_map_of_mem hpair
  refine ⟨fun pair hpair => ?_, ?_, fun pair hpair => ?_⟩
  · obtain ⟨item, hitem, hkey, hvalue⟩ := exists_item_of_encodedAs h.encodedAs hpair
    exact ⟨h.plainKey (hmem pair hpair), item.2, hvalue⟩
  · rw [h.keys]
    exact values.nodup
  · rw [AtMostOnce, ← map_fst_parseLines, ← length_activeLineIndices hscan]
    exact h.once _ (hmem pair hpair)

/-- The new lines, as the update of the old ones. -/
theorem PreparedFrom.rewritten (h : PreparedFrom s fs values encoded prepared) :
    Rewritten encoded (feedLines prepared.originalText) (prepared.pairs.map Prod.fst) := by
  have hscan := scanned_parseLines prepared.originalText
  have hupdatable := h.updatable
  rw [← map_fst_parseLines] at hupdatable ⊢
  have hrewritten := rewritten_writeAssignments hscan hupdatable
  rwa [← h.written] at hrewritten

theorem PreparedFrom.changed_eq_nil_iff (h : PreparedFrom s fs values encoded prepared) :
    prepared.changedKeys = [] ↔ ∀ item ∈ encoded, IsSet (feedLines prepared.originalText) item := by
  have hscan := scanned_parseLines prepared.originalText
  have hupdatable := h.updatable
  rw [← map_fst_parseLines] at hupdatable ⊢
  rw [← EnvConfig.changed_eq_nil_iff hscan hupdatable, ← h.written]

/-- The lines of the new file hold neither line feed nor carriage return. -/
theorem PreparedFrom.plainLines (h : PreparedFrom s fs values encoded prepared) :
    ∀ line ∈ prepared.pairs.map Prod.fst, lf ∉ line ∧ cr ∉ line := by
  obtain ⟨-, -, -, text, -, htext⟩ := readOriginal_eq_ok h.reads
  intro line hline
  have hpairs : prepared.pairs = (writeAssignments (parseLines prepared.originalText) encoded).1 := by
    rw [← h.written]
  rw [hpairs] at hline
  rcases mem_foldl_writeAssignment hline with hold | ⟨item, hitem, rfl⟩
  · rw [map_fst_parseLines] at hold
    refine ⟨lf_not_mem_feedLines hold, fun hcr => ?_⟩
    simp only at htext
    rw [htext] at hold
    exact cr_not_mem_translate text (mem_of_mem_feedLines hold hcr)
  · obtain ⟨hkey, raw, hraw⟩ := h.updatable.items item hitem
    exact lf_cr_not_mem_assign hkey hraw

theorem PreparedFrom.universalLines_render (h : PreparedFrom s fs values encoded prepared) :
    universalLines (renderLines prepared.pairs) =
      (prepared.pairs.map Prod.fst).map fun line => ⟨line, .lf⟩ := by
  rw [renderLines_eq, universalLines_joinLines_of_not_mem h.plainLines]

theorem PreparedFrom.translate_render (h : PreparedFrom s fs values encoded prepared) :
    feedLines (translate (renderLines prepared.pairs)) = prepared.pairs.map Prod.fst := by
  have hlines := h.plainLines
  have hcr : cr ∉ renderLines prepared.pairs := by
    rw [renderLines_eq, joinLines, List.mem_flatMap]
    rintro ⟨line, hline, hmem⟩
    have hne := (hlines line hline).2
    simp [hne, lf_ne_cr.symm] at hmem
  rw [translate_eq_self hcr, renderLines_eq, feedLines_joinLines fun line hline => (hlines line hline).1]

end Prepared

/-! ## The two conditions -/

/-- No other line of the file ends with a carriage return. -/
def PlainEndings (names : List Text) (text : Text) : Prop :=
  ∀ line ∈ otherLines names text, line.ending ≠ .cr ∧ line.ending ≠ .crlf

/-- The file already assigns every named key the encoding of its value. -/
def AlreadySet (values : Dict Text Text) (text : Text) : Prop :=
  ∀ item ∈ values.items, ∃ line ∈ universalLines text, ∃ encoded,
    encodeEnvValue item.2 = .ok encoded ∧ activeKey line.text = some item.1 ∧
      strip line.text = assign item.1 encoded

/-- Text mode gives the lines the reader sees. -/
theorem feedLines_translate (text : Text) :
    feedLines (translate text) = (universalLines text).map Line.text := by
  rw [← map_text_universalLines (cr_not_mem_translate text), universalLines_translate]
  simp [Function.comp_def]

theorem alreadySet_iff {values : Dict Text Text} {encoded : List (Text × Text)}
    (h : List.Forall₂ EncodedAs values.items encoded) :
    AlreadySet values text ↔ ∀ pair ∈ encoded, IsSet (feedLines (translate text)) pair := by
  rw [feedLines_translate]
  constructor
  · intro hset pair hpair
    obtain ⟨item, hitem, hkey, hvalue⟩ := exists_item_of_encodedAs h hpair
    obtain ⟨line, hline, value, hencoded, hactive, hstrip⟩ := hset item hitem
    obtain rfl : value = pair.2 := Except.ok.inj (hencoded.symm.trans hvalue)
    refine ⟨line.text, mem_assigning.mpr ⟨List.mem_map_of_mem hline, ?_⟩, ?_⟩
    · rw [hactive, hkey]
    · rw [hstrip, hkey]
  · intro hset item hitem
    obtain ⟨pair, hpair, hkey, hvalue⟩ := exists_encoded_of_item h hitem
    obtain ⟨text', htext', hstrip⟩ := hset pair hpair
    obtain ⟨hmem, hactive⟩ := mem_assigning.mp htext'
    obtain ⟨line, hline, rfl⟩ := List.mem_map.mp hmem
    exact ⟨line, hline, pair.2, hvalue, hkey ▸ hactive, hkey ▸ hstrip⟩

theorem PreparedFrom.changed_iff {s : Surroundings} {fs : FileSystem} {values : Dict Text Text}
    {encoded : List (Text × Text)} {prepared : Prepared}
    (h : PreparedFrom s fs values encoded prepared) (htext : fs.env.contents = some text) :
    prepared.originalText = translate text ∧
      (prepared.changedKeys = [] ↔ AlreadySet values text) := by
  obtain ⟨-, -, -, text', hcontents, horiginal⟩ := readOriginal_eq_ok h.reads
  obtain rfl : text' = text := Option.some.inj (hcontents.symm.trans htext)
  refine ⟨horiginal, ?_⟩
  rw [h.changed_eq_nil_iff, alreadySet_iff h.encodedAs, ← horiginal]

/-- An update that the file already carries changes nothing and reports nothing. -/
theorem updateManagedValues_of_alreadySet (s : Surroundings) {fs : FileSystem}
    {values : Dict Text Text} (htext : fs.env.contents = some text) (h : AlreadySet values text) :
    (updateManagedValues s fs values).2 = fs ∧
      ∀ changed, (updateManagedValues s fs values).1 = .ok changed → changed = [] := by
  unfold updateManagedValues
  cases hprepared : prepareUpdate s fs values with
  | error e => simp
  | ok prepared =>
    obtain ⟨encoded, hfrom⟩ := prepareUpdate_eq_ok.mp hprepared
    simp [((hfrom.changed_iff htext).2).mpr h]

/-! ## A written update -/

theorem forall₂_unchanged_map (lines : List Line) :
    List.Forall₂ Unchanged lines (lines.map fun line => ⟨line.text, .lf⟩) ↔
      ∀ line ∈ lines, line.ending ≠ .cr ∧ line.ending ≠ .crlf := by
  rw [List.forall₂_map_right_iff, List.forall₂_same]
  refine forall₂_congr fun line _ => ?_
  cases hending : line.ending <;> simp [Unchanged, hending]

theorem unchanged_refl (line : Line) : Unchanged line line := ⟨rfl, .inl rfl⟩

section Written

variable {s : Surroundings} {fs : FileSystem} {values : Dict Text Text}
  {encoded : List (Text × Text)} {prepared : Prepared} {old : Text}

/-- The reader finds the new values and keeps the others, in any text with the new lines. -/
theorem PreparedFrom.reads_new (h : PreparedFrom s fs values encoded prepared)
    (hold : fs.env.contents = some old) {new : Text}
    (hnew : (universalLines new).map Line.text = prepared.pairs.map Prod.fst) :
    (∀ key raw, values.get? key = some raw → (repositoryData new).get? key = some raw) ∧
      ∀ key, key ∉ values.keys → (repositoryData new).get? key = (repositoryData old).get? key := by
  have horiginal := (h.changed_iff hold).1
  have hrewritten := h.rewritten
  rw [horiginal, feedLines_translate] at hrewritten
  simp only [repositoryData, hnew]
  constructor
  · intro key raw hget
    obtain ⟨pair, hpair, hkey, hvalue⟩ :=
      exists_encoded_of_item h.encodedAs (Dict.get?_eq_some_iff.mp hget)
    obtain ⟨pairKey, pairValue⟩ := pair
    simp only at hkey hvalue
    subst hkey
    exact hrewritten.get?_named (h.plainKey (Dict.mem_keys_of_get? hget)) hvalue hpair
  · intro key hkey
    refine hrewritten.get?_other fun item hitem heq => hkey ?_
    rw [← h.keys, ← heq]
    exact List.mem_map_of_mem hitem

/-- The other lines of the new file are those of the old one, each ended by a line feed. -/
theorem PreparedFrom.otherLines_render (h : PreparedFrom s fs values encoded prepared)
    (hold : fs.env.contents = some old) :
    otherLines values.keys (renderLines prepared.pairs) =
      (otherLines values.keys old).map fun line => ⟨line.text, .lf⟩ := by
  have hrewritten := h.rewritten
  rw [(h.changed_iff hold).1, feedLines_translate] at hrewritten
  have hothers := hrewritten.others (fun line => ∀ key ∈ values.keys, activeKey line ≠ some key)
    fun line hline item hitem => by
      have hkey : item.1 ∈ values.keys := by
        rw [← h.keys]
        exact List.mem_map_of_mem hitem
      exact of_decide_eq_true hline item.1 hkey
  rw [otherLines, h.universalLines_render, List.filter_map, otherLines]
  simp only [Function.comp_def]
  rw [hothers, List.filter_map, List.map_map]
  rfl

/-- The new file assigns every named key the encoding of its value. -/
theorem PreparedFrom.alreadySet_render (h : PreparedFrom s fs values encoded prepared) :
    AlreadySet values (renderLines prepared.pairs) := by
  rw [alreadySet_iff h.encodedAs, h.translate_render]
  exact fun pair hpair => h.rewritten.isSet hpair

/-- The same call, made again over the new file, finds nothing to do. -/
theorem PreparedFrom.again (h : PreparedFrom s fs values encoded prepared)
    (henv : after.env = .file data mode) (hdata : decode data = some (renderLines prepared.pairs)) :
    updateManagedValues s after values = (.ok [], after) := by
  obtain ⟨hread, -, -, -⟩ := readOriginal_eq_ok h.reads
  have hcontents : after.env.contents = some (renderLines prepared.pairs) := by
    rw [henv]
    exact hdata
  have hagain : PreparedFrom s after values encoded
      ⟨translate (renderLines prepared.pairs), mode,
        (writeAssignments (parseLines (translate (renderLines prepared.pairs))) encoded).1,
        (writeAssignments (parseLines (translate (renderLines prepared.pairs))) encoded).2⟩ := by
    refine ⟨h.encodes, h.locked, h.settled, ?_, fun key hkey => ?_, rfl⟩
    · simp [readOriginal, hread, henv, hdata]
    · have hupdatable := h.rewritten.updatable h.updatable
      rw [length_activeLineIndices (scanned_parseLines _), map_fst_parseLines, h.translate_render]
      rw [← h.keys] at hkey
      obtain ⟨pair, hpair, rfl⟩ := List.mem_map.mp hkey
      exact hupdatable.once pair hpair
  have hnothing := ((hagain.changed_iff hcontents).2).mpr h.alreadySet_render
  have hprepared := prepareUpdate_eq_ok.mpr ⟨encoded, hagain⟩
  simp only [updateManagedValues, hprepared]
  rw [if_pos hnothing]

end Written

/-! ## The update of managed values -/

theorem atomicWriteBytes_eq_ok {after : Entry}
    (h : atomicWriteBytes fault path data mode = (.ok (), after)) :
    after = .file data mode := by
  unfold atomicWriteBytes at h
  split at h <;> cases h
  rfl

/-- An atomic write that raises before its rename leaves what stands at the path. -/
theorem atomicWriteBytes_eq_error {after : Entry} {e : WriteError}
    (h : atomicWriteBytes fault path data mode = (.error e, after))
    (he : e ≠ .interruptedAfterRename) : after = path := by
  unfold atomicWriteBytes at h
  split at h <;> cases h
  · rfl
  · rfl
  · rfl
  · exact absurd rfl he

theorem writeBackup_env (s : Surroundings) (fs : FileSystem) (originalText : Text) :
    (writeBackup s fs originalText).2.env = fs.env := by
  unfold writeBackup
  split
  · rfl
  · split <;> rfl

/-- A call that raises before the final rename leaves the file as it was. -/
theorem updateManagedValues_raises (s : Surroundings) (fs : FileSystem) (values : Dict Text Text)
    {e : Raised} (h : (updateManagedValues s fs values).1 = .error e)
    (he : e ≠ .interruptedAfterRename) : (updateManagedValues s fs values).2.env = fs.env := by
  revert h
  unfold updateManagedValues
  split
  · exact fun _ => rfl
  · rename_i prepared _
    split_ifs
    · exact fun _ => rfl
    · have hbackup := writeBackup_env s fs prepared.originalText
      split
      · rename_i heq
        rw [heq] at hbackup
        exact fun _ => hbackup
      · rename_i heq
        rw [heq] at hbackup
        split
        · exact fun _ => hbackup
        · split
          · rename_i e' entry hwrite
            intro heq'
            have hne : e' ≠ .interruptedAfterRename := by
              rintro rfl
              exact he (Except.error.inj heq').symm
            rw [atomicWriteBytes_eq_error hwrite hne]
            exact hbackup
          · exact fun heq' => nomatch heq'

/-- What a successful call has done: nothing, or the whole file written anew. -/
theorem updateManagedValues_eq_ok {s : Surroundings} {fs : FileSystem} {values : Dict Text Text}
    {changed : List Text} (h : updateManagedValues s fs values = (.ok changed, after)) :
    ∃ encoded prepared, PreparedFrom s fs values encoded prepared ∧
      changed = prepared.changedKeys ∧
      ((prepared.changedKeys = [] ∧ after = fs) ∨
        (prepared.changedKeys ≠ [] ∧ ∃ data mode, after.env = .file data mode ∧
          decode data = some (renderLines prepared.pairs))) := by
  unfold updateManagedValues at h
  split at h
  · cases h
  · rename_i prepared hprepared
    obtain ⟨encoded, hfrom⟩ := prepareUpdate_eq_ok.mp hprepared
    split_ifs at h with hnothing
    · cases h
      exact ⟨encoded, prepared, hfrom, hnothing.symm, .inl ⟨hnothing, rfl⟩⟩
    · split at h
      · cases h
      · split at h
        · cases h
        · rename_i data hencode
          split at h
          · cases h
          · rename_i entry hwrite
            cases h
            obtain rfl := atomicWriteBytes_eq_ok hwrite
            exact ⟨encoded, prepared, hfrom, rfl,
              .inr ⟨hnothing, data, _, rfl, decode_of_encode hencode⟩⟩

end IsadoraAir.EnvConfig
