import IsadoraAir.Foundation.Checks
import IsadoraAir.Foundation.Dict
import Mathlib.Data.List.ReduceOption

/-!
# Duplicate findings

`library_duplicate_resolution.py`: which findings of a scan report may be
resolved by deletion. A field is `none` where the report has nothing of its
type there.
-/

namespace IsadoraAir.DuplicateResolution

abbrev TrackId := ℤ

/-- An `audio_identity`. -/
structure Identity where
  algorithm : Option String
  sha256 : Option String
  sampleRate : Option ℤ
  frames : Option ℤ
  channels : Option ℤ
  sampleFormat : Option String

/-- A file of a finding. -/
structure Entry where
  trackId : Option TrackId
  path : Option String
  size : Option ℤ
  mtimeNs : Option ℤ
  witness : Option (List ℤ)
  sha256 : Option String
  identity : Option Identity

structure Verification where
  status : Option String
  files : Option (List Entry)

structure Finding where
  id : String
  type : String
  confidence : Option String
  members : List TrackId
  memberCount : Option ℤ
  files : List Entry
  audioVerification : Option Verification

structure Report where
  scanId : String
  status : String
  findings : List Finding

inductive Kind where
  | exactBytes
  | decodedAudio
  deriving DecidableEq

def evidenceKind (f : Finding) : Option Kind :=
  if f.confidence = some "exact" then some .exactBytes
  else if f.confidence = some "audio_equivalent" then some .decodedAudio
  else none

/-- Why there is no evidence. -/
inductive Why where
  | noEvidence
  | noAudioEvidence
  | audioMismatch
  | noWitness
  deriving DecidableEq

/-! ## The files of the two members -/

/-- The files by their Tracks, each Track once; `strays` are files of other Tracks. -/
def collect (members : List TrackId) (strays : Bool) :
    List Entry → Dict TrackId Entry → Option (Dict TrackId Entry)
  | [], byTrack => some byTrack
  | entry :: rest, byTrack =>
    match entry.trackId with
    | some track =>
      if track ∈ members then
        if track ∈ byTrack.keys then none
        else collect members strays rest (byTrack.insert track entry)
      else if strays then collect members strays rest byTrack
      else none
    | none => if strays then collect members strays rest byTrack else none

/-- No path, size or time. -/
def lacksStat (entry : Entry) : Bool :=
  entry.path.isNone || entry.size.isNone || entry.mtimeNs.isNone

/-- The witness has six fields, two of them the size and the time. -/
def witnessProblem (entry : Entry) : Option Why :=
  match entry.witness with
  | some [_, _, size, mtime, _, _] =>
    if entry.size = some size ∧ entry.mtimeNs = some mtime then none else some .noEvidence
  | _ => some .noWitness

def witnessOk (entry : Entry) : Option Why :=
  if lacksStat entry then some .noEvidence else witnessProblem entry

/-- The first problem raises. -/
def raiseFirst (problems : List (Option Why)) : Except Why Unit :=
  match problems.reduceOption with
  | [] => .ok ()
  | why :: _ => .error why

/-! ## Evidence -/

def isDigest (sha256 : Option String) : Bool := sha256.any fun digest => digest.length = 64

/-- All files have one digest. -/
def oneDigest : List (Option String) → Bool
  | [] => false
  | digest :: digests => digests.all (· = digest) && isDigest digest

def exactEvidence (f : Finding) : Except Why (Dict TrackId Entry) := do
  let byTrack ← orRaise (collect f.members true f.files .empty) .noEvidence
  raiseIf (f.members.length ≠ 2 ∨ ¬∀ track ∈ f.members, track ∈ byTrack.keys) .noEvidence
  let digests := f.members.map fun track => (byTrack.get? track).bind Entry.sha256
  raiseIf (oneDigest digests = false) .noEvidence
  raiseIf (byTrack.values.any lacksStat = true) .noEvidence
  raiseFirst (byTrack.values.map witnessProblem)
  pure byTrack

/-- `audio_identity.ALGORITHM` -/
def algorithm : String := "isadoraair-audio/v1:pcm_s32le:2ch:native-rate:sha256"

def isPositive (number : Option ℤ) : Bool := number.any (0 < ·)

def isHex (sha256 : Option String) : Bool :=
  sha256.all fun digest => digest.toList.all (· ∈ "0123456789abcdef".toList)

def wellFormed (i : Identity) : Bool :=
  i.algorithm.isSome && isDigest i.sha256 && isHex i.sha256 && isPositive i.sampleRate &&
    isPositive i.frames && i.channels = some 2 && i.sampleFormat = some "s32le"

/-- Well-formed identities of this algorithm that describe the same decoded audio. -/
def sameAudio (i j : Identity) : Bool :=
  wellFormed i && wellFormed j && i.algorithm = some algorithm && j.algorithm = some algorithm &&
    i.sha256 = j.sha256 && i.sampleRate = j.sampleRate && i.frames = j.frames

def audioProblem (entry : Entry) : Option Why :=
  match witnessOk entry with
  | some .noWitness => some .noWitness
  | some _ => some .noAudioEvidence
  | none =>
    match entry.identity with
    | some i => if wellFormed i && i.algorithm = some algorithm then none else some .noAudioEvidence
    | none => some .noAudioEvidence

/-- One path, or one device and inode. -/
def sameFile (entry other : Entry) : Bool :=
  entry.path = other.path || entry.witness.map (·.take 2) = other.witness.map (·.take 2)

/-- The files of the two members, in their order. -/
def pair (members : List TrackId) (byTrack : Dict TrackId Entry) : Option (Entry × Entry) :=
  match members with
  | [first, second] => do
    let entry ← byTrack.get? first
    let other ← byTrack.get? second
    pure (entry, other)
  | _ => none

def audioEvidence (f : Finding) : Except Why (Dict TrackId Entry) := do
  let record ← orRaise f.audioVerification .noAudioEvidence
  raiseIf (record.status ≠ some "verified" ∨ f.members.length ≠ 2) .noAudioEvidence
  let files ← orRaise record.files .noAudioEvidence
  raiseIf (files.length ≠ 2) .noAudioEvidence
  let byTrack ← orRaise (collect f.members false files .empty) .noAudioEvidence
  raiseFirst (byTrack.values.map audioProblem)
  let (entry, other) ← orRaise (pair f.members byTrack) .noAudioEvidence
  raiseIf (sameFile entry other = true) .noAudioEvidence
  let first ← orRaise entry.identity .noAudioEvidence
  let second ← orRaise other.identity .noAudioEvidence
  raiseIf (sameAudio first second = false) .audioMismatch
  pure byTrack

def evidence (f : Finding) : Except Why (Dict TrackId Entry) :=
  match evidenceKind f with
  | some .decodedAudio => audioEvidence f
  | some .exactBytes => exactEvidence f
  | none => .error .noEvidence

/-- Why a finding is for review only. -/
inductive Ineligible where
  | notDuplicate
  | notProved
  | fewerThanTwo
  | shared (count : ℤ)
  | evidence (why : Why)
  deriving DecidableEq

def memberCount (f : Finding) : ℤ := f.memberCount.getD f.members.length

def findingEligibility (f : Finding) : Except Ineligible Unit := do
  raiseIf (f.type ≠ "duplicate") .notDuplicate
  raiseIf (evidenceKind f = none) .notProved
  raiseIf (f.members.length < 2) .fewerThanTwo
  raiseIf (2 < f.members.length ∨ memberCount f ≠ 2) (.shared (memberCount f))
  let _ ← (evidence f).mapError Ineligible.evidence
  pure ()

/-- `_finding` -/
def Report.finding? (report : Report) (id : String) : Option Finding :=
  report.findings.find? fun f => f.id = id ∧ f.type = "duplicate"

/-! ## What the evidence proves -/

/-- The scan has found one recording in both files. -/
def SameRecording (f : Finding) (entry other : Entry) : Prop :=
  match evidenceKind f with
  | some .exactBytes => entry.sha256 = other.sha256 ∧ isDigest entry.sha256
  | some .decodedAudio =>
    ∃ i j, entry.identity = some i ∧ other.identity = some j ∧ sameAudio i j
  | none => False

theorem sameAudio_comm {i j : Identity} : sameAudio i j = sameAudio j i := by
  rw [Bool.eq_iff_iff]
  simp only [sameAudio, Bool.and_eq_true, decide_eq_true_eq]
  constructor <;>
    · rintro ⟨⟨⟨⟨⟨⟨hi, hj⟩, ha⟩, hb⟩, hsha⟩, hrate⟩, hframes⟩
      exact ⟨⟨⟨⟨⟨⟨hj, hi⟩, hb⟩, ha⟩, hsha.symm⟩, hrate.symm⟩, hframes.symm⟩

theorem SameRecording.symm {f : Finding} {entry other : Entry} (h : SameRecording f entry other) :
    SameRecording f other entry := by
  unfold SameRecording at h ⊢
  split at h
  · exact ⟨h.1.symm, h.1 ▸ h.2⟩
  · obtain ⟨i, j, hi, hj, hsame⟩ := h
    exact ⟨j, i, hj, hi, sameAudio_comm ▸ hsame⟩
  · exact h.elim

variable {f : Finding} {byTrack : Dict TrackId Entry} {a b : TrackId}

theorem exactEvidence_pair (h : exactEvidence f = .ok byTrack) (hmembers : f.members = [a, b]) :
    ∃ entry other, byTrack.get? a = some entry ∧ byTrack.get? b = some other ∧
      entry.sha256 = other.sha256 ∧ isDigest entry.sha256 := by
  obtain ⟨d, -, h⟩ := orRaise_bind_eq_ok.mp h
  obtain ⟨hkeys, h⟩ := raiseIf_bind_eq_ok.mp h
  obtain ⟨hdigest, h⟩ := raiseIf_bind_eq_ok.mp h
  obtain ⟨-, h⟩ := raiseIf_bind_eq_ok.mp h
  obtain ⟨-, -, h⟩ := bind_eq_ok.mp h
  cases h
  simp only [not_or, not_not] at hkeys
  obtain ⟨entry, hentry⟩ := Dict.exists_get?_of_mem_keys (hkeys.2 a (by simp [hmembers]))
  obtain ⟨other, hother⟩ := Dict.exists_get?_of_mem_keys (hkeys.2 b (by simp [hmembers]))
  rw [Bool.not_eq_false] at hdigest
  simp only [hmembers, List.map_cons, List.map_nil, hentry, hother, Option.bind_some, oneDigest,
    List.all_cons, List.all_nil, Bool.and_true, Bool.and_eq_true, decide_eq_true_eq] at hdigest
  exact ⟨entry, other, hentry, hother, hdigest.1.symm, hdigest.2⟩

theorem audioEvidence_pair (h : audioEvidence f = .ok byTrack) (hmembers : f.members = [a, b]) :
    ∃ entry other, byTrack.get? a = some entry ∧ byTrack.get? b = some other ∧
      ∃ i j, entry.identity = some i ∧ other.identity = some j ∧ sameAudio i j := by
  obtain ⟨record, -, h⟩ := orRaise_bind_eq_ok.mp h
  obtain ⟨-, h⟩ := raiseIf_bind_eq_ok.mp h
  obtain ⟨files, -, h⟩ := orRaise_bind_eq_ok.mp h
  obtain ⟨-, h⟩ := raiseIf_bind_eq_ok.mp h
  obtain ⟨d, -, h⟩ := orRaise_bind_eq_ok.mp h
  obtain ⟨-, -, h⟩ := bind_eq_ok.mp h
  obtain ⟨⟨entry, other⟩, hpair, h⟩ := orRaise_bind_eq_ok.mp h
  obtain ⟨-, h⟩ := raiseIf_bind_eq_ok.mp h
  obtain ⟨i, hi, h⟩ := orRaise_bind_eq_ok.mp h
  obtain ⟨j, hj, h⟩ := orRaise_bind_eq_ok.mp h
  obtain ⟨hsame, h⟩ := raiseIf_bind_eq_ok.mp h
  cases h
  simp only [hmembers, pair, Option.bind_eq_bind, Option.bind_eq_some_iff] at hpair
  obtain ⟨first, hfirst, second, hsecond, heq⟩ := hpair
  cases heq
  exact ⟨entry, other, hfirst, hsecond, i, j, hi, hj, by simpa using hsame⟩

/-- The evidence names both files, and one recording in them. -/
theorem evidence_pair (h : evidence f = .ok byTrack) (hmembers : f.members = [a, b]) :
    ∃ entry other, byTrack.get? a = some entry ∧ byTrack.get? b = some other ∧
      SameRecording f entry other := by
  unfold evidence at h
  unfold SameRecording
  split at h
  · next hkind =>
    rw [hkind]
    exact audioEvidence_pair h hmembers
  · next hkind =>
    rw [hkind]
    exact exactEvidence_pair h hmembers
  · cases h

/-- An eligible finding has two members, and evidence. -/
theorem findingEligibility_eq_ok (h : findingEligibility f = .ok ()) :
    f.type = "duplicate" ∧ f.members.length = 2 ∧ ∃ byTrack, evidence f = .ok byTrack := by
  obtain ⟨htype, h⟩ := raiseIf_bind_eq_ok.mp h
  obtain ⟨-, h⟩ := raiseIf_bind_eq_ok.mp h
  obtain ⟨hfew, h⟩ := raiseIf_bind_eq_ok.mp h
  obtain ⟨hmany, h⟩ := raiseIf_bind_eq_ok.mp h
  obtain ⟨byTrack, hevidence, -⟩ := bind_eq_ok.mp h
  refine ⟨not_not.mp htype, ?_, byTrack, mapError_eq_ok.mp hevidence⟩
  omega

theorem finding?_eq_some {report : Report} {id : String} (h : report.finding? id = some f) :
    f ∈ report.findings ∧ f.id = id := by
  refine ⟨List.mem_of_find?_eq_some h, ?_⟩
  have hfound := List.find?_some h
  simp only [Bool.decide_and, Bool.and_eq_true, decide_eq_true_eq] at hfound
  exact hfound.1

end IsadoraAir.DuplicateResolution
