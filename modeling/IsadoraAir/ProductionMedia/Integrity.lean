import IsadoraAir.ProductionMedia.Retention

/-!
# Integrity of the media store

What holds in every run of ingests, bindings, purges and sweeps in which each
ingest commits in time and is told so.
-/

namespace IsadoraAir.ProductionMedia

open Relation

variable {files : Dict String File} {parts : Dict Uuid File} {id : MediaId} {clock : ℤ}
  {α : Type} {sha256 : Bytes → String} {s s' s'' : Shared α} {a : α}

/-! ## What the store promises -/

/-- The child is derived from the parent. -/
def Derives (db : Db) (parent child : MediaId) : Prop :=
  ∃ row, db.media.get? child = some row ∧ row.derivedFrom = some parent

def Prohibited (db : Db) (id : MediaId) : Prop :=
  ∃ row, db.media.get? id = some row ∧ row.airingProhibited = true

variable (sha256) in
structure Intact (s : Shared α) : Prop where
  bytes : ∀ id row, s.db.media.get? id = some row → row.retention = .present →
    ∃ f, s.files.get? row.storageKey = some f ∧ sha256 f.bytes = row.sha256 ∧
      f.bytes.length = row.byteSize
  keys : ∀ id id' row row', s.db.media.get? id = some row → s.db.media.get? id' = some row' →
    row.storageKey = row'.storageKey → id = id'
  referenced : ∀ slot r, s.db.references.get? slot = some r →
    ∃ row, s.db.media.get? r.media = some row ∧ row.retention = .present
  parents : ∀ parent child, Derives s.db parent child →
    ∃ row, s.db.media.get? parent = some row ∧ row.retention = .present
  prohibited : ∀ ancestor id, TransGen (Derives s.db) ancestor id → Prohibited s.db ancestor →
    Prohibited s.db id
  airing : ∀ slot r ancestor, s.db.references.get? slot = some r → r.airing = true →
    ReflTransGen (Derives s.db) ancestor r.media → ¬Prohibited s.db ancestor

/-- Three moments of a run, one after the other. -/
structure Lasting (s s' s'' : Shared α) : Prop where
  contents : ∀ key f f', s.files.get? key = some f → s''.files.get? key = some f' →
    f'.bytes = f.bytes
  removed : ∀ key f, s.files.get? key = some f → s'.files.get? key = none →
    ∀ id row, s''.db.media.get? id = some row → row.storageKey = key → row.retention = .purged

theorem prohibited_of_derives (hs : s.db.Sound) {parent child : MediaId}
    (h : Derives s.db parent child) (hparent : Prohibited s.db parent) : Prohibited s.db child := by
  obtain ⟨row, hrow, hderived⟩ := h
  obtain ⟨p, hp, hprohibited⟩ := hparent
  obtain ⟨p', hp', -, hinherits⟩ := hs.parents child row parent hrow hderived
  obtain rfl := Option.some.inj (hp.symm.trans hp')
  exact ⟨row, hrow, hinherits hprohibited⟩

theorem prohibited_of_descends (hs : s.db.Sound) {ancestor : MediaId}
    (h : ReflTransGen (Derives s.db) ancestor id) (hancestor : Prohibited s.db ancestor) :
    Prohibited s.db id := by
  induction h with
  | refl => exact hancestor
  | tail _ hderives ih => exact prohibited_of_derives hs hderives ih

theorem intact_of_invariant (hs : Invariant sha256 s) : Intact sha256 s where
  bytes := hs.backed
  keys id id' row row' hrow hrow' heq := by
    apply storageKeyFor_injective
    rw [← hs.sound.keys id row hrow, ← hs.sound.keys id' row' hrow', heq]
  referenced slot r hr := by
    obtain ⟨row, hrow, hpresent, -⟩ := hs.sound.references slot r hr
    exact ⟨row, hrow, hpresent⟩
  parents parent child := by
    rintro ⟨row, hrow, hderived⟩
    obtain ⟨p, hp, hpresent, -⟩ := hs.sound.parents child row parent hrow hderived
    exact ⟨p, hp, hpresent⟩
  prohibited ancestor id h := prohibited_of_descends hs.sound h.to_reflTransGen
  airing slot r ancestor hr hairing h hancestor := by
    obtain ⟨row, hrow, -, hprohibited⟩ := hs.sound.references slot r hr
    obtain ⟨row', hrow', htrue⟩ := prohibited_of_descends hs.sound h hancestor
    obtain rfl := Option.some.inj (hrow.symm.trans hrow')
    rw [hairing, htrue] at hprohibited
    cases hprohibited

/-! ## What is remembered -/

structure Remembers (s s' : Shared α) : Prop where
  stored : s.stored ⊆ s'.stored
  removed : s.removed ⊆ s'.removed
  lost : ∀ key f, s.files.get? key = some f → s'.files.get? key = none → key ∈ s'.removed

namespace Remembers

theorem of_eq (hfiles : s'.files = s.files) (hstored : s'.stored = s.stored)
    (hremoved : s'.removed = s.removed) : Remembers s s' := by
  refine ⟨fun _ h => hstored ▸ h, fun _ h => hremoved ▸ h, fun key f h hnone => ?_⟩
  rw [hfiles, h] at hnone
  cases hnone

theorem refl (s : Shared α) : Remembers s s := of_eq rfl rfl rfl

theorem trans (h : Remembers s s') (h' : Remembers s' s'') : Remembers s s'' where
  stored := List.Subset.trans h.stored h'.stored
  removed := List.Subset.trans h.removed h'.removed
  lost key f hf hnone := by
    cases hmiddle : s'.files.get? key with
    | none => exact h'.removed (h.lost key f hf hmiddle)
    | some f' => exact h'.lost key f' hmiddle hnone

variable [DecidableEq α]

theorem promoteFile (id : MediaId) (bytes : Bytes) : Remembers s (promoteFile s a id bytes) := by
  refine ⟨List.subset_append_left .., fun _ h => h, fun key f hf hnone => ?_⟩
  change (s.files.insert _ _).get? key = none at hnone
  rw [Dict.get?_insert] at hnone
  split_ifs at hnone
  cases hf.symm.trans hnone

theorem unlink (key : String) (result : Unlinked) : Remembers s (unlink s a key result) := by
  unfold ProductionMedia.unlink
  refine ⟨fun _ h => h, fun _ h => ?_, fun key' f hf hnone => ?_⟩
  · dsimp only
    split_ifs
    · exact List.mem_append_left _ h
    · exact h
  · dsimp only at hnone ⊢
    split_ifs at hnone ⊢
    · rw [Dict.get?_erase] at hnone
      split_ifs at hnone with hkey
      · rw [hkey]
        exact List.mem_append_right _ (List.mem_singleton_self _)
      · cases hf.symm.trans hnone
    · cases hf.symm.trans hnone

theorem lock {r : Locked} (h : lock s a id = some (r, s')) : Remembers s s' := by
  unfold ProductionMedia.lock at h
  split at h
  · cases h
    exact refl s
  · split_ifs at h
    cases h
    exact of_eq rfl rfl rfl

theorem of_exec {d : Decision} {x : Action} {r : x.Result} (h : exec d a x s = some (r, s')) :
    Remembers s s' := by
  cases x with
  | openPart =>
    simp only [exec] at h
    split_ifs at h <;> cases h
    · exact refl s
    · exact of_eq rfl rfl rfl
  | writeChunk bytes =>
    simp only [exec, writeChunk] at h
    split_ifs at h
    · cases h
      exact refl s
    · split at h <;> cases h <;> exact of_eq rfl rfl rfl
  | newId =>
    simp only [exec] at h
    split_ifs at h
    cases h
    exact of_eq rfl rfl rfl
  | link part id =>
    obtain rfl := congrArg Prod.snd (Option.some.inj h)
    unfold link
    split
    · exact refl s
    · split_ifs
      · exact refl s
      · exact refl s
      · exact promoteFile id _
  | unlinkPart part =>
    obtain rfl := congrArg Prod.snd (Option.some.inj h)
    split_ifs
    · exact of_eq rfl rfl rfl
    · exact refl s
  | unlink key =>
    cases h
    exact unlink key _
  | lock id =>
    simp only [exec] at h
    split_ifs at h
    · cases h
      exact refl s
    · exact lock h
  | write w =>
    obtain rfl := congrArg Prod.snd (Option.some.inj h)
    unfold write
    split_ifs
    · exact refl s
    · exact of_eq rfl rfl rfl
  | commit =>
    cases h
    cases d.commit <;> exact of_eq rfl rfl rfl
  | _ => cases h; exact of_eq rfl rfl rfl

end Remembers

variable [DecidableEq α]

theorem step_remembers (e : Event α) (s : State α) :
    Remembers s.shared (step sha256 e s).shared := by
  rcases Crew.step_shared crew (program sha256) e s with
    h | ⟨b, h⟩ | ⟨b, d, call, done, x, next, r, -, -, h, -⟩
  · exact .of_eq (congrArg Shared.files h) (congrArg Shared.stored h) (congrArg Shared.removed h)
  · unfold step
    rw [h]
    exact .of_eq rfl rfl rfl
  · exact .of_exec h

theorem run_remembers (events : List (Event α)) (s : State α) :
    Remembers s.shared (Runs.run (step sha256) events s).shared := by
  induction events generalizing s with
  | nil => exact .refl _
  | cons e rest ih => exact (step_remembers e s).trans (ih (step sha256 e s))

omit [DecidableEq α] in
/-- What is remembered of names that are never used twice. -/
theorem lasting_of_remembers (hs : Invariant sha256 s) (hs'' : Invariant sha256 s'')
    (h : Remembers s s') (h' : Remembers s' s'') : Lasting s s' s'' where
  contents key f f' hf hf' := by
    have hold := h'.stored (h.stored (hs.files key f hf))
    have hnew := hs''.files key f' hf'
    exact congrArg Prod.snd (List.inj_on_of_nodup_map hs''.stored hnew hold rfl)
  removed key f hf hnone := (hs''.removed key (h'.removed (h.lost key f hf hnone))).purged

/-! ## Runs -/

theorem program_safe (call : Call) {s : Shared α} (hs : Invariant sha256 s) (h : Clean a s) :
    (program sha256 call).Safe (service sha256 a) s (Ends sha256 (fun _ s => Clean a s) (Clean a)) := by
  cases call with
  | ingest r => exact bind_safe (ingest_safe r hs h) (fun _ s hs h => ⟨hs, h⟩) fun _ s hs h => ⟨hs, h⟩
  | bind changes =>
    exact bind_safe (bindings_safe changes hs h) (fun _ s hs h => ⟨hs, h⟩) fun _ s hs h => ⟨hs, h⟩
  | purge id => exact bind_safe (purge_safe id hs h) (fun _ s hs h => ⟨hs, h⟩) fun _ s hs h => ⟨hs, h⟩
  | judge id verdict =>
    exact bind_safe (judge_safe id verdict hs h) (fun _ s hs h => ⟨hs, h⟩) fun _ s hs h => ⟨hs, h⟩
  | sweepOrphanMedia grace apply =>
    exact bind_safe (sweepOrphanMedia_safe grace apply hs h) (fun _ s hs h => ⟨hs, h⟩)
      fun _ s hs h => ⟨hs, h⟩
  | sweepStaleParts grace apply =>
    exact bind_safe (sweepStaleParts_safe grace apply hs h) (fun _ s hs h => ⟨hs, h⟩)
      fun _ s hs h => ⟨hs, h⟩
  | elapse microseconds =>
    refine act_safe hs h kept_clean fun d s r s' hs h _ hexec => ?_
    cases hexec
    exact ⟨hs.elapse microseconds, h.session, h.inflight⟩

theorem lawful :
    (crew.restrict InTime : Crew Action.Result (Shared α) α Decision).Lawful (assertions sha256)
      (program sha256) where
  abandon a s hs := ⟨hs.kill a, Sessions.rollback_clean s.store a, Function.update_self ..⟩
  during _ _ _ _ _ hothers := ⟨hothers.2.1, trivial⟩
  clean a s s' h hothers := by
    have hspares : (service sha256 a).others s s' := hothers
    exact kept_clean s s' h (others_spares hspares).2
  start call a s hs h := by
    refine (program_safe call hs h).mono fun r s h => ?_
    cases r with
    | ok _ => exact h
    | error _ => exact h

omit [DecidableEq α] in
theorem initial_invariant (files : Dict String File) (parts : Dict Uuid File) (clock : ℤ) :
    Invariant sha256 (initial files parts clock : State α).shared := by
  have hnames : (files.items.map fun file => (file.1, file.2.bytes)).map Prod.fst = files.keys := by
    simp [Dict.keys, Function.comp_def]
  constructor
  case sound =>
    constructor
    all_goals
      intros
      contradiction
  case shape =>
    intro a
    left
    intros
    contradiction
  case drawn => exact fun key h => List.mem_append_left _ (hnames ▸ h)
  case stored => exact hnames ▸ files.nodup_keys
  case files =>
    intro key f h
    exact List.mem_map_of_mem (f := fun file : String × File => (file.1, file.2.bytes))
      (Dict.get?_eq_some_iff.mp h)
  all_goals
    intros
    contradiction

variable (sha256) in
/-- The store after a run. -/
def after (files : Dict String File) (parts : Dict Uuid File) (clock : ℤ)
    (events : List (Event α)) : Shared α :=
  (Runs.run (step sha256) events (initial files parts clock)).shared

theorem after_invariant {events : List (Event α)}
    (h : Runs.Throughout (step sha256) (Crew.Admits InTime) events (initial files parts clock)) :
    Invariant sha256 (after sha256 files parts clock events) := by
  have hinitial : Invariant sha256 (initial files parts clock : State α).shared :=
    initial_invariant files parts clock
  have hclean (a : α) : Clean a (initial files parts clock : State α).shared :=
    ⟨Sessions.initial_clean _ a, rfl⟩
  have hsound := (lawful.run_sound (Crew.idle_sound hinitial hclean) events).shared
  -- In such a run, nothing is lost by admitting these steps only.
  have hrun : Runs.run ((crew.restrict InTime).step (program sha256)) events
      (initial files parts clock) = Runs.run (step sha256) events (initial files parts clock) :=
    Runs.run_congr (fun e s h => Crew.restrict_step e h) h
  unfold after
  rw [← hrun]
  exact hsound

theorem after_append (events more : List (Event α)) :
    Remembers (after sha256 files parts clock events)
      (after sha256 files parts clock (events ++ more)) := by
  unfold after
  rw [Runs.run_append]
  exact run_remembers more _

/-- The store keeps its promises in every run that commits its ingests in time. -/
theorem media_intact {files : Dict String File} {parts : Dict Uuid File} {clock : ℤ}
    {first second third : List (Event α)}
    (h : Runs.Throughout (step sha256) (Crew.Admits InTime) (first ++ second ++ third)
      (initial files parts clock)) :
    Intact sha256 (after sha256 files parts clock (first ++ second ++ third)) ∧
      Lasting (after sha256 files parts clock first) (after sha256 files parts clock (first ++ second))
        (after sha256 files parts clock (first ++ second ++ third)) := by
  have hsecond := (Runs.throughout_append.mp h).1
  have hfirst := (Runs.throughout_append.mp hsecond).1
  refine ⟨intact_of_invariant (after_invariant h), ?_⟩
  exact lasting_of_remembers (after_invariant hfirst) (after_invariant h) (after_append first second)
    (after_append (first ++ second) third)

/-! ## Runs of one byte -/

/-- `hashlib.sha256`, where the runs below need it. -/
def sampleDigest (bytes : Bytes) : String :=
  if bytes = [1] then "4bf5122f344554c53bde2ebb8cd2b7e3d1600ad631c385a5d7cce23c7785459a" else ""

def sampleUuid (digit : Char) (h : isHexDigit digit = true) : Uuid :=
  ⟨List.replicate 32 digit, List.length_replicate, by simp [h]⟩

def sampleId : MediaId := sampleUuid '1' (by decide)

/-- Nothing fails. -/
def sampleDecision : Decision := ⟨false, sampleId, .valid true, .done, 0⟩

def samplePart : Decision := { sampleDecision with uuid := sampleUuid '0' (by decide) }

def sampleRequest : Request := ⟨.upload, false, none, false, true, false, 1, [.data [1]]⟩

/-- An upload, up to its commit. -/
def uploading : List (Event Bool) :=
  [.start true (.ingest sampleRequest), .act true sampleDecision, .act true samplePart] ++
    List.replicate 10 (.act true sampleDecision)

def uploaded : List (Event Bool) := uploading ++ [.act true sampleDecision]

/-- The media is bound by another agent, and then not purged. -/
def bound : List (Event Bool) :=
  .start false (.bind [.bind 0 sampleId true true]) :: List.replicate 3 (.act false sampleDecision)

def refusedPurge : List (Event Bool) :=
  .start true (.purge sampleId) :: List.replicate 3 (.act true sampleDecision)

/-- The response to the commit is lost: the clean-up takes the bytes of a committed row. -/
def lostResponse : List (Event Bool) :=
  uploading ++ [.act true { sampleDecision with commit := .lost }] ++
    List.replicate 2 (.act true sampleDecision)

theorem media_intact_uploaded :
    Intact sampleDigest (after sampleDigest .empty .empty 0 (uploaded ++ bound ++ refusedPurge)) ∧
      Lasting (after sampleDigest .empty .empty 0 uploaded)
        (after sampleDigest .empty .empty 0 (uploaded ++ bound))
        (after sampleDigest .empty .empty 0 (uploaded ++ bound ++ refusedPurge)) :=
  media_intact (by decide +kernel)

/-- No sweep ever begins, and a present row has no bytes. -/
theorem present_without_bytes :
    (after sampleDigest .empty .empty 0 lostResponse).graces = [] ∧
      ¬Intact sampleDigest (after sampleDigest .empty .empty 0 lostResponse) := by
  have hrow : ((after sampleDigest .empty .empty 0 lostResponse).db.media.get? sampleId).any
      (fun row => row.retention = .present ∧
        (after sampleDigest .empty .empty 0 lostResponse).files.get? row.storageKey = none) = true := by
    decide +kernel
  refine ⟨by decide +kernel, fun h => ?_⟩
  obtain ⟨row, hget, hmissing⟩ := (Option.any_eq_true ..).mp hrow
  obtain ⟨hpresent, hnone⟩ := of_decide_eq_true hmissing
  obtain ⟨f, hf, -⟩ := h.bytes sampleId row hget hpresent
  cases hnone.symm.trans hf

end IsadoraAir.ProductionMedia
