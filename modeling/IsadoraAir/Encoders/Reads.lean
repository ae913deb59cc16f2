import IsadoraAir.Encoders.LastKnownGood

/-!
# What a read of the last-known-good store returns

The pointer always names the last promotion swapped in, and its directory is
complete. A read in progress relies on the files it still has to look at; what
the writer does keeps them, except the removals the pruning makes.
-/

namespace IsadoraAir.LastKnownGood

open Text

variable {r : Reader} {v : VersionId} {sha256 : Text → String} {s s' : Store}

namespace Store

def HasScript (s : Store) (v : VersionId) : Prop := (s.scriptOf v).isSome = true

def HasMetadata (s : Store) (v : VersionId) : Prop := (s.metadataOf v).isSome = true

theorem scriptOf_putDir (s : Store) (v w : VersionId) (script : Option Text)
    (metadata : Option Items) :
    (s.putDir v script metadata).scriptOf w = if w = v then script else s.scriptOf w := by
  unfold scriptOf putDir
  rw [Dict.get?_insert]
  split_ifs <;> rfl

theorem metadataOf_putDir (s : Store) (v w : VersionId) (script : Option Text)
    (metadata : Option Items) :
    (s.putDir v script metadata).metadataOf w = if w = v then metadata else s.metadataOf w := by
  unfold metadataOf putDir
  rw [Dict.get?_insert]
  split_ifs <;> rfl

end Store

/-! ## The invariant -/

/-- Where the writer is, the files that its earlier operations have written are there. -/
def WriterOk (sha256 : Text → String) (s : Store) : Writer → Prop
  | .idle => True
  | .preparing p => cr ∉ p.script
  | .creating p _ => cr ∉ p.script
  | .writingScript p _ => cr ∉ p.script ∧ p.versionId ∈ s.issued ∧
      p.versionId ∉ s.swapped.map Promotion.versionId
  | .writingMetadata p _ => cr ∉ p.script ∧ p.versionId ∈ s.issued ∧
      p.versionId ∉ s.swapped.map Promotion.versionId ∧ s.scriptOf p.versionId = some p.script
  | .swapping p _ => cr ∉ p.script ∧ p.versionId ∈ s.issued ∧
      s.scriptOf p.versionId = some p.script ∧
      s.metadataOf p.versionId = some (p.metadata sha256)
  | .listing keep => ∀ v, s.current = some v → v ∈ keep
  | .pruning entries => ∀ v, s.current = some v → v ∉ entries

/-- What a read in progress relies on, and what a finished one has returned. -/
def ReaderOk (sha256 : Text → String) (s : Store) : Reader → Prop
  | .idle => True
  | .foundPointer _ => s.swapped ≠ []
  | .holding _ v => v ∈ s.swapped.map Promotion.versionId ∧ s.HasScript v ∧ s.HasMetadata v
  | .foundScript _ v => v ∈ s.swapped.map Promotion.versionId ∧ s.HasMetadata v
  | .readScript _ v script =>
      (∃ p ∈ s.swapped, p.versionId = v ∧ script = p.script) ∧ s.HasMetadata v
  | .foundMetadata _ v script =>
      (∃ p ∈ s.swapped, p.versionId = v ∧ script = p.script) ∧ s.HasMetadata v
  | .done before answer => Justified sha256 s.swapped before answer

/-- What is true of the store and its readers, wherever the writer is. -/
structure Consistent (sha256 : Text → String) (s : Store) : Prop where
  pointer : s.current = s.swapped.getLast?.map Promotion.versionId
  complete : ∀ v, s.current = some v → s.HasScript v ∧ s.HasMetadata v
  issued : ∀ p ∈ s.swapped, p.versionId ∈ s.issued
  plain : ∀ p ∈ s.swapped, cr ∉ p.script
  scripts : ∀ p ∈ s.swapped, ∀ text, s.scriptOf p.versionId = some text → text = p.script
  documents : ∀ p ∈ s.swapped, ∀ document, s.metadataOf p.versionId = some document →
    document = p.metadata sha256
  readers : ∀ i, ReaderOk sha256 s (s.readers i)

def Inv (sha256 : Text → String) (s : Store) : Prop :=
  Consistent sha256 s ∧ WriterOk sha256 s s.writer

theorem inv_initial (sha256 : Text → String) : Inv sha256 .initial := by
  constructor
  · constructor <;> simp [Store.initial, ReaderOk]
  · trivial

namespace Consistent

theorem current_mem (h : Consistent sha256 s) (hv : s.current = some v) :
    v ∈ s.swapped.map Promotion.versionId := by
  rw [h.pointer, Option.map_eq_some_iff] at hv
  obtain ⟨p, hp, rfl⟩ := hv
  exact List.mem_map_of_mem (List.mem_of_getLast? hp)

theorem swapped_eq_nil (h : Consistent sha256 s) (hnone : s.current = none) : s.swapped = [] := by
  rw [h.pointer, Option.map_eq_none_iff] at hnone
  exact List.getLast?_eq_none_iff.mp hnone

end Consistent

/-- A finished or running read keeps what it relies on when promotions are only added and the
files it awaits stay. -/
theorem ReaderOk.mono (h : ReaderOk sha256 s r) (hswapped : s.swapped <+: s'.swapped)
    (hscript : ∀ v, r.AwaitsScript v → s.HasScript v → s'.HasScript v)
    (hmetadata : ∀ v, r.AwaitsMetadata v → s.HasMetadata v → s'.HasMetadata v) :
    ReaderOk sha256 s' r := by
  have hmem : ∀ p ∈ s.swapped, p ∈ s'.swapped := fun p hp => hswapped.subset hp
  have hid : ∀ v ∈ s.swapped.map Promotion.versionId, v ∈ s'.swapped.map Promotion.versionId :=
    fun v hv => List.map_subset Promotion.versionId hswapped.subset hv
  have hpromoted : ∀ v script, (∃ p ∈ s.swapped, p.versionId = v ∧ script = p.script) →
      ∃ p ∈ s'.swapped, p.versionId = v ∧ script = p.script := by
    intro v script hp
    obtain ⟨p, hp, hv⟩ := hp
    exact ⟨p, hmem p hp, hv⟩
  cases r with
  | idle => trivial
  | foundPointer before =>
    intro hnil
    rw [hnil, List.prefix_nil] at hswapped
    exact h hswapped
  | holding before v => exact ⟨hid v h.1, hscript v rfl h.2.1, hmetadata v rfl h.2.2⟩
  | foundScript before v => exact ⟨hid v h.1, hmetadata v rfl h.2⟩
  | readScript before v script => exact ⟨hpromoted v script h.1, hmetadata v rfl h.2⟩
  | foundMetadata before v script => exact ⟨hpromoted v script h.1, hmetadata v rfl h.2⟩
  | done before answer =>
    cases answer with
    | nothing => exact h
    | raised => trivial
    | pair script metadata =>
      obtain ⟨p, hp, hpair⟩ := h
      exact ⟨p, hmem p hp, hpair⟩

theorem ReaderOk.mem_of_awaitsScript (h : ReaderOk sha256 s r)
    (hr : r.AwaitsScript v) : v ∈ s.swapped.map Promotion.versionId := by
  cases r with
  | holding before w =>
    cases hr
    exact h.1
  | _ => exact hr.elim

theorem ReaderOk.mem_of_awaitsMetadata (h : ReaderOk sha256 s r)
    (hr : r.AwaitsMetadata v) : v ∈ s.swapped.map Promotion.versionId := by
  cases r with
  | holding before w =>
    cases hr
    exact h.1
  | foundScript before w =>
    cases hr
    exact h.1
  | readScript before w script =>
    cases hr
    obtain ⟨p, hp, rfl, -⟩ := h.1
    exact List.mem_map_of_mem hp
  | foundMetadata before w script =>
    cases hr
    obtain ⟨p, hp, rfl, -⟩ := h.1
    exact List.mem_map_of_mem hp
  | _ => exact hr.elim

/-! ## The files of the store -/

/-- A file of a version stays as it is, or goes while nothing needs it. -/
def Kept {α : Type} (s : Store) (awaits : Reader → VersionId → Prop) (v : VersionId)
    (before after : Option α) : Prop :=
  after = before ∨
    (after = none ∧ s.current ≠ some v ∧ ∀ i, ¬awaits (s.readers i) v)

/-- A step that moves neither the pointer nor the readers, and keeps the promoted files that are
needed. -/
theorem Consistent.of_kept (h : Consistent sha256 s) (hcurrent : s'.current = s.current)
    (hswapped : s'.swapped = s.swapped) (hreaders : s'.readers = s.readers)
    (hissued : ∀ v ∈ s.issued, v ∈ s'.issued) (hscript : ∀ v ∈ s.swapped.map Promotion.versionId,
      Kept s (fun r v => r.AwaitsScript v) v (s.scriptOf v) (s'.scriptOf v))
    (hmetadata : ∀ v ∈ s.swapped.map Promotion.versionId,
      Kept s (fun r v => r.AwaitsMetadata v) v (s.metadataOf v) (s'.metadataOf v)) :
    Consistent sha256 s' where
  pointer := by rw [hcurrent, hswapped, h.pointer]
  complete := by
    intro v hv
    rw [hcurrent] at hv
    obtain ⟨hs, hm⟩ := h.complete v hv
    have hmem := h.current_mem hv
    constructor
    · rcases hscript v hmem with heq | ⟨-, hne, -⟩
      · rw [Store.HasScript, heq]
        exact hs
      · exact absurd hv hne
    · rcases hmetadata v hmem with heq | ⟨-, hne, -⟩
      · rw [Store.HasMetadata, heq]
        exact hm
      · exact absurd hv hne
  issued := by
    intro p hp
    exact hissued _ (h.issued p (hswapped ▸ hp))
  plain := by
    intro p hp
    exact h.plain p (hswapped ▸ hp)
  scripts := by
    intro p hp text htext
    rw [hswapped] at hp
    rcases hscript _ (List.mem_map_of_mem hp) with heq | ⟨hnone, -⟩
    · exact h.scripts p hp text (heq ▸ htext)
    · rw [hnone] at htext
      cases htext
  documents := by
    intro p hp document hdocument
    rw [hswapped] at hp
    rcases hmetadata _ (List.mem_map_of_mem hp) with heq | ⟨hnone, -⟩
    · exact h.documents p hp document (heq ▸ hdocument)
    · rw [hnone] at hdocument
      cases hdocument
  readers := by
    intro i
    rw [hreaders]
    refine (h.readers i).mono (hswapped ▸ List.prefix_rfl) ?_ ?_
    · intro v hawaits hs
      rcases hscript v ((h.readers i).mem_of_awaitsScript hawaits) with heq | ⟨-, -, hnot⟩
      · rw [Store.HasScript, heq]
        exact hs
      · exact absurd hawaits (hnot i)
    · intro v hawaits hm
      rcases hmetadata v ((h.readers i).mem_of_awaitsMetadata hawaits) with heq | ⟨-, -, hnot⟩
      · rw [Store.HasMetadata, heq]
        exact hm
      · exact absurd hawaits (hnot i)

/-- Nothing but the writer's own place changes. -/
theorem Consistent.of_writer (h : Consistent sha256 s) (w : Writer) :
    Consistent sha256 { s with writer := w } :=
  h.of_kept rfl rfl rfl (fun _ hv => hv) (fun _ _ => .inl rfl) (fun _ _ => .inl rfl)

/-- The directory of a version that is not promoted may hold anything. -/
theorem Consistent.of_unpromoted (h : Consistent sha256 s)
    (hv : v ∉ s.swapped.map Promotion.versionId) (script : Option Text) (metadata : Option Items)
    {issued : List VersionId} (hissued : ∀ w ∈ s.issued, w ∈ issued) (w : Writer) :
    Consistent sha256 { s.putDir v script metadata with issued := issued, writer := w } := by
  have hne : ∀ u ∈ s.swapped.map Promotion.versionId, u ≠ v := by
    rintro u hu rfl
    exact hv hu
  refine Consistent.of_kept h ?_ ?_ ?_ hissued ?_ ?_
  · rfl
  · rfl
  · rfl
  · intro u hu
    exact .inl ((s.scriptOf_putDir v u script metadata).trans (if_neg (hne u hu)))
  · intro u hu
    exact .inl ((s.metadataOf_putDir v u script metadata).trans (if_neg (hne u hu)))

/-- The swap: the version in the writer's hands has both its files. -/
theorem Consistent.swap (h : Consistent sha256 s) {p : Promotion} {old : Option VersionId}
    (hw : WriterOk sha256 s (.swapping p old)) (w : Writer) :
    Consistent sha256
      { s with current := some p.versionId, swapped := s.swapped ++ [p], writer := w } := by
  obtain ⟨hcr, hissued, hscript, hmetadata⟩ := hw
  have hother : ∀ (q : Promotion), q ∈ s.swapped ++ [p] → q ∈ s.swapped ∨ q = p := by simp
  constructor
  · simp
  · intro v hv
    cases hv
    constructor
    · exact Option.isSome_of_eq_some hscript
    · exact Option.isSome_of_eq_some hmetadata
  · intro q hq
    rcases hother q hq with hq | rfl
    · exact h.issued q hq
    · exact hissued
  · intro q hq
    rcases hother q hq with hq | rfl
    · exact h.plain q hq
    · exact hcr
  · intro q hq text htext
    rcases hother q hq with hq | rfl
    · exact h.scripts q hq text htext
    · exact Option.some.inj (htext.symm.trans hscript)
  · intro q hq document hdocument
    rcases hother q hq with hq | rfl
    · exact h.documents q hq document hdocument
    · exact Option.some.inj (hdocument.symm.trans hmetadata)
  · intro i
    exact (h.readers i).mono (List.prefix_append _ _) (fun _ _ hs => hs) (fun _ _ hm => hm)

/-! ## One step -/

theorem inv_advance (h : Inv sha256 s) : Inv sha256 (advance sha256 s) := by
  obtain ⟨hc, hw⟩ := id h
  cases hwriter : s.writer with
  | idle => simpa only [advance, hwriter] using h
  | listing keep => simpa only [advance, hwriter] using h
  | preparing p =>
    rw [hwriter] at hw
    simp only [advance, hwriter]
    exact ⟨hc.of_writer _, hw⟩
  | creating p old =>
    rw [hwriter] at hw
    by_cases hnew : p.versionId ∈ s.issued
    · simpa only [advance, hwriter, if_pos hnew] using h
    · have hv : p.versionId ∉ s.swapped.map Promotion.versionId := by
        intro hmem
        obtain ⟨q, hq, heq⟩ := List.mem_map.mp hmem
        exact hnew (heq ▸ hc.issued q hq)
      simp only [advance, hwriter, if_neg hnew]
      exact ⟨hc.of_unpromoted hv none none (fun _ hmem => List.mem_cons_of_mem _ hmem) _,
        hw, List.mem_cons_self, hv⟩
  | writingScript p old =>
    rw [hwriter] at hw
    obtain ⟨hcr, hissued, hv⟩ := hw
    simp only [advance, hwriter]
    cases encode p.script with
    | none => exact ⟨hc.of_writer _, trivial⟩
    | some bytes =>
      exact ⟨hc.of_unpromoted hv (some p.script) none (fun _ hmem => hmem) _, hcr, hissued, hv,
        (s.scriptOf_putDir _ _ _ _).trans (if_pos rfl)⟩
  | writingMetadata p old =>
    rw [hwriter] at hw
    obtain ⟨hcr, hissued, hv, hscript⟩ := hw
    simp only [advance, hwriter]
    exact ⟨hc.of_unpromoted hv _ (some (p.metadata sha256)) (fun _ hmem => hmem) _, hcr, hissued,
      ((s.scriptOf_putDir _ _ _ _).trans (if_pos rfl)).trans hscript,
      (s.metadataOf_putDir _ _ _ _).trans (if_pos rfl)⟩
  | swapping p old =>
    rw [hwriter] at hw
    simp only [advance, hwriter]
    constructor
    · exact hc.swap hw _
    · intro v hv
      cases hv
      exact List.mem_cons_self
  | pruning entries =>
    cases entries with
    | nil =>
      simp only [advance, hwriter]
      exact ⟨hc.of_writer _, trivial⟩
    | cons v entries => simpa only [advance, hwriter] using h

/-- Taking the first directory off the pruning's list. -/
theorem WriterOk.tail {entries : List VersionId}
    (h : WriterOk sha256 s (.pruning (v :: entries))) : WriterOk sha256 s (.pruning entries) :=
  fun w hw hmem => h w hw (List.mem_cons_of_mem v hmem)

/-- Removing a file of a directory that is not the current one. -/
theorem Consistent.of_removed (h : Consistent sha256 s) (script : Option Text) (metadata : Option Items)
    (hscript : Kept s (fun r v => r.AwaitsScript v) v (s.scriptOf v) script)
    (hmetadata : Kept s (fun r v => r.AwaitsMetadata v) v (s.metadataOf v) metadata) :
    Consistent sha256 (s.putDir v script metadata) := by
  refine Consistent.of_kept h ?_ ?_ ?_ (fun _ hmem => hmem) ?_ ?_
  · rfl
  · rfl
  · rfl
  · intro u hu
    rw [s.scriptOf_putDir]
    by_cases huv : u = v
    · rw [if_pos huv, huv]
      exact hscript
    · exact .inl (if_neg huv)
  · intro u hu
    rw [s.metadataOf_putDir]
    by_cases huv : u = v
    · rw [if_pos huv, huv]
      exact hmetadata
    · exact .inl (if_neg huv)

theorem inv_unlinkScript (h : Inv sha256 s) (hharmless : Harmless .unlinkScript s) :
    Inv sha256 (prune s .unlinkScript) := by
  obtain ⟨hc, hw⟩ := id h
  match hwriter : s.writer with
  | .pruning (v :: entries) =>
    rw [hwriter] at hw
    cases hdir : s.versions.get? v with
    | none => simpa only [prune, hwriter, hdir] using h
    | some dir =>
      simp only [prune, hwriter, hdir]
      constructor
      · apply hc.of_removed
        · exact .inr ⟨rfl, fun hv => hw v hv List.mem_cons_self, hharmless v entries hwriter⟩
        · exact .inl (by simp [Store.metadataOf, hdir])
      · have hplace : ∀ script metadata,
            (s.putDir v script metadata).writer = .pruning (v :: entries) := fun _ _ => hwriter
        rw [hplace]
        exact hw
  | .pruning [] | .idle | .preparing _ | .creating _ _ | .writingScript _ _
  | .writingMetadata _ _ | .swapping _ _ | .listing _ => simpa only [prune, hwriter] using h

theorem inv_unlinkMetadata (h : Inv sha256 s) (hharmless : Harmless .unlinkMetadata s) :
    Inv sha256 (prune s .unlinkMetadata) := by
  obtain ⟨hc, hw⟩ := id h
  match hwriter : s.writer with
  | .pruning (v :: entries) =>
    rw [hwriter] at hw
    cases hdir : s.versions.get? v with
    | none => simpa only [prune, hwriter, hdir] using h
    | some dir =>
      simp only [prune, hwriter, hdir]
      constructor
      · apply hc.of_removed
        · exact .inl (by simp [Store.scriptOf, hdir])
        · exact .inr ⟨rfl, fun hv => hw v hv List.mem_cons_self, hharmless v entries hwriter⟩
      · have hplace : ∀ script metadata,
            (s.putDir v script metadata).writer = .pruning (v :: entries) := fun _ _ => hwriter
        rw [hplace]
        exact hw
  | .pruning [] | .idle | .preparing _ | .creating _ _ | .writingScript _ _
  | .writingMetadata _ _ | .swapping _ _ | .listing _ => simpa only [prune, hwriter] using h

/-- The directory that is removed holds no file any more. -/
theorem inv_removeDirectory (h : Inv sha256 s) : Inv sha256 (prune s .removeDirectory) := by
  obtain ⟨hc, hw⟩ := id h
  match hwriter : s.writer with
  | .pruning (v :: entries) =>
    rw [hwriter] at hw
    by_cases hempty : s.scriptOf v = none ∧ (s.metadataOf v).isNone = true
    · have hgone : ∀ u, (s.versions.erase v).get? u = none ∧ u = v ∨
          (s.versions.erase v).get? u = s.versions.get? u := by
        intro u
        rw [Dict.get?_erase]
        by_cases huv : u = v
        · exact .inl ⟨if_pos huv, huv⟩
        · exact .inr (if_neg huv)
      simp only [prune, hwriter, if_pos hempty]
      constructor
      · refine Consistent.of_kept hc ?_ ?_ ?_ (fun _ hmem => hmem) ?_ ?_
        · rfl
        · rfl
        · rfl
        · intro u hu
          left
          rcases hgone u with ⟨hnone, rfl⟩ | hsame
          · simp only [Store.scriptOf, hnone]
            exact hempty.1.symm
          · simp only [Store.scriptOf, hsame]
        · intro u hu
          left
          rcases hgone u with ⟨hnone, rfl⟩ | hsame
          · simp only [Store.metadataOf, hnone]
            exact (Option.isNone_iff_eq_none.mp hempty.2).symm
          · simp only [Store.metadataOf, hsame]
      · exact hw.tail
    · simp only [prune, hwriter, if_neg hempty]
      exact ⟨hc.of_writer _, hw.tail⟩
  | .pruning [] | .idle | .preparing _ | .creating _ _ | .writingScript _ _
  | .writingMetadata _ _ | .swapping _ _ | .listing _ => simpa only [prune, hwriter] using h

theorem inv_giveUp (h : Inv sha256 s) : Inv sha256 (prune s .giveUp) := by
  obtain ⟨hc, hw⟩ := id h
  match hwriter : s.writer with
  | .pruning (v :: entries) =>
    rw [hwriter] at hw
    simp only [prune, hwriter]
    exact ⟨hc.of_writer _, hw.tail⟩
  | .listing keep =>
    simp only [prune, hwriter]
    exact ⟨hc.of_writer _, trivial⟩
  | .pruning [] | .idle | .preparing _ | .creating _ _ | .writingScript _ _
  | .writingMetadata _ _ | .swapping _ _ => simpa only [prune, hwriter] using h

/-- The metadata a promotion writes carries the hash of its own script. -/
theorem conclude_metadata (p : Promotion) :
    conclude sha256 p.script (some (p.metadata sha256)) =
      .pair p.script (some (p.metadata sha256)) := by
  have hhash : Dict.find "script_sha256" (p.metadata sha256) = some (.text (sha256 p.script)) :=
    (Dict.find_put _ _ _ _).trans (if_pos rfl)
  have hequal : (PyValue.text (sha256 p.script)).equal (.text (sha256 p.script)) = true := by
    simp [PyValue.equal]
  simp only [conclude, hhash, if_pos hequal]

theorem Consistent.advanceReader (h : Consistent sha256 s)
    (hr : ReaderOk sha256 s r) : ReaderOk sha256 s (advanceReader sha256 s r) := by
  have hstart : ReaderOk sha256 s (LastKnownGood.advanceReader sha256 s .idle) := by
    unfold LastKnownGood.advanceReader
    cases hcurrent : s.current with
    | none => simp [ReaderOk, Justified, h.swapped_eq_nil hcurrent]
    | some v => exact List.ne_nil_of_mem (List.mem_map.mp (h.current_mem hcurrent)).choose_spec.1
  cases r with
  | idle => exact hstart
  | done before answer => exact hstart
  | foundPointer before =>
    cases hcurrent : s.current with
    | none => exact absurd (h.swapped_eq_nil hcurrent) hr
    | some v =>
      simp only [LastKnownGood.advanceReader, hcurrent]
      exact ⟨h.current_mem hcurrent, h.complete v hcurrent⟩
  | holding before v =>
    obtain ⟨hv, hscript, hmetadata⟩ := hr
    obtain ⟨text, htext⟩ := Option.isSome_iff_exists.mp hscript
    simp only [LastKnownGood.advanceReader, htext]
    exact ⟨hv, hmetadata⟩
  | foundScript before v =>
    obtain ⟨hv, hmetadata⟩ := hr
    cases hscript : s.scriptOf v with
    | none => simp [LastKnownGood.advanceReader, hscript, ReaderOk, Justified]
    | some text =>
      obtain ⟨p, hp, rfl⟩ := List.mem_map.mp hv
      have htext := h.scripts p hp text hscript
      simp only [LastKnownGood.advanceReader, hscript]
      exact ⟨⟨p, hp, rfl, by rw [htext, translate_eq_self (h.plain p hp)]⟩, hmetadata⟩
  | readScript before v script =>
    obtain ⟨hp, hmetadata⟩ := hr
    obtain ⟨document, hdocument⟩ := Option.isSome_iff_exists.mp hmetadata
    simp only [LastKnownGood.advanceReader, hdocument]
    exact ⟨hp, hmetadata⟩
  | foundMetadata before v script =>
    obtain ⟨⟨p, hp, rfl, rfl⟩, hmetadata⟩ := hr
    obtain ⟨document, hdocument⟩ := Option.isSome_iff_exists.mp hmetadata
    have hwritten := h.documents p hp document hdocument
    simp only [LastKnownGood.advanceReader, hdocument, hwritten, conclude_metadata]
    exact ⟨p, hp, rfl, rfl⟩

theorem Consistent.setReader (h : Consistent sha256 s) (i : ℕ)
    (hr : ReaderOk sha256 s r) : Consistent sha256 (s.setReader i r) where
  pointer := h.pointer
  complete := h.complete
  issued := h.issued
  plain := h.plain
  scripts := h.scripts
  documents := h.documents
  readers := by
    intro j
    have hsame : ∀ {r'}, ReaderOk sha256 s r' → ReaderOk sha256 (s.setReader i r) r' := fun hr' =>
      hr'.mono List.prefix_rfl (fun _ _ hs => hs) (fun _ _ hm => hm)
    by_cases hj : j = i
    · have hnew : (s.setReader i r).readers j = r := by simp [Store.setReader, hj]
      rw [hnew]
      exact hsame hr
    · have hold : (s.setReader i r).readers j = s.readers j := by simp [Store.setReader, hj]
      rw [hold]
      exact hsame (h.readers j)

/-- One step lemma for every event. -/
theorem inv_step {event : Event} (hharmless : Harmless event s) (h : Inv sha256 s) :
    Inv sha256 (step sha256 event s) := by
  obtain ⟨hc, hw⟩ := id h
  cases event with
  | promote p =>
    cases hwriter : s.writer with
    | idle =>
      simp only [step, hwriter]
      exact ⟨hc.of_writer _, hharmless⟩
    | _ => simpa only [step, hwriter] using h
  | advance => exact inv_advance h
  | list entries =>
    cases hwriter : s.writer with
    | listing keep =>
      rw [hwriter] at hw
      by_cases hentries : entries.Perm s.versions.keys
      · simp only [step, hwriter, if_pos hentries]
        refine ⟨hc.of_writer _, fun v hv hmem => ?_⟩
        exact of_decide_eq_true (List.mem_filter.mp hmem).2 (hw v hv)
      · simpa only [step, hwriter, if_neg hentries] using h
    | _ => simpa only [step, hwriter] using h
  | unlinkScript => exact inv_unlinkScript h hharmless
  | unlinkMetadata => exact inv_unlinkMetadata h hharmless
  | removeDirectory => exact inv_removeDirectory h
  | giveUp => exact inv_giveUp h
  | kill => exact ⟨hc.of_writer _, trivial⟩
  | read i =>
    constructor
    · exact hc.setReader i (hc.advanceReader (hc.readers i))
    · exact hw

/-! ## Whole runs -/

section Samples

def samplePromotion (script : String) (v : VersionId) : Promotion where
  script := codePoints script
  document := [("destinations", .list [])]
  versionId := v

/-- The script itself stands for its hash. -/
def sampleHash (text : Text) : String := String.ofList (text.filterMap scalar?)

/-- A whole promotion that finds the given directories, and the removals it makes. -/
def samplePromoted (p : Promotion) (entries : List VersionId) (removals : List Event) :
    List Event :=
  [.promote p] ++ .replicate 5 .advance ++ [.list entries] ++ removals ++ [.advance]

def sampleRead (steps : ℕ) : List Event := .replicate steps (.read 0)

/-- Two promotions later the first version goes. -/
def samplePruned : List Event :=
  samplePromoted (samplePromotion "second" 1) [0, 1] [] ++
    samplePromoted (samplePromotion "third" 2) [2, 0, 1]
      [.unlinkMetadata, .unlinkScript, .removeDirectory]

def sampleEnd (events : List Event) : Store := Runs.run (step sampleHash) events .initial

end Samples

end IsadoraAir.LastKnownGood
