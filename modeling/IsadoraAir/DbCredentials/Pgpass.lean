import IsadoraAir.Foundation.SplitLines
import IsadoraAir.Foundation.PyError
import IsadoraAir.EnvConfig.Assignments

/-!
# The password file of the database

An entry has five fields, separated by colons that no backslash escapes. The
entry is found by its fields with their escapes taken away; the password is
written behind the fourth colon of the line as it stands.
-/

namespace IsadoraAir.DbCredentials

open Text EnvConfig

/-- What the functions raise. -/
inductive Raised where
  | credentialPreflight (message : String)
  | unicodeEncode
  | env (error : EnvConfigError)

def colon : CodePoint := .scalar ':'

structure DatabaseIdentity where
  host : Text
  port : ℤ
  name : Text
  user : Text

structure PgpassFields where
  host : Text
  port : Text
  name : Text
  user : Text
  password : Text
  deriving DecidableEq

/-! ## The fields of a line -/

/-- The loop of `_split_pgpass_fields`; `none` when the line ends in the middle of an escape. -/
def splitFields : (escaped : Bool) → (current : Text) → Text → Option (List Text)
  | true, _, [] => none
  | false, current, [] => some [current]
  | true, current, char :: rest => splitFields false (current ++ [char]) rest
  | false, current, char :: rest =>
    if char = backslash then splitFields true current rest
    else if char = colon then (splitFields false [] rest).map (current :: ·)
    else splitFields false (current ++ [char]) rest

/-- `_split_pgpass_fields` -/
def splitPgpassFields (line : Text) : Except Raised PgpassFields :=
  match splitFields false [] line with
  | none => .error (.credentialPreflight ".pgpass contains a trailing escape")
  | some [host, port, name, user, password] => .ok ⟨host, port, name, user, password⟩
  | some _ => .error (.credentialPreflight ".pgpass contains a malformed active entry")

/-- `_escape_pgpass_password` -/
def escapePgpassPassword (password : Text) : Except Raised Text := do
  raiseIf (∃ char ∈ password, char ∈ [.scalar '\x00', cr, lf])
    (.credentialPreflight "the requested password contains a forbidden control character")
  .ok (password.flatMap fun char =>
    if char = backslash ∨ char = colon then [backslash, char] else [char])

/-! ## The new password -/

/-- Membership in `SAFE_PASSWORD_ALPHABET`. -/
def isSafe : CodePoint → Bool
  | .scalar c =>
    let n := c.toNat
    ('a'.toNat ≤ n ∧ n ≤ 'z'.toNat) ∨ ('A'.toNat ≤ n ∧ n ≤ 'Z'.toNat) ∨
      ('0'.toNat ≤ n ∧ n ≤ '9'.toNat) ∨ n ∈ ['_'.toNat, '-'.toNat, '~'.toNat]
  | .surrogate _ => false

def validateNewPassword (password : Text) : Except Raised Unit := do
  raiseIf (¬(32 ≤ password.length ∧ password.length ≤ 1024))
    (.credentialPreflight "the new password must contain 32 through 1024 characters")
  raiseIf (∃ char ∈ password, isSafe char = false)
    (.credentialPreflight
      "the new password may contain only ASCII letters, digits, underscore, hyphen, and tilde")
  let encoded ← (encodeEnvValue password).mapError .env
  raiseIf (encoded ≠ password)
    (.credentialPreflight "the new password is not safe for every database consumer")
  let escaped ← escapePgpassPassword password
  raiseIf (escaped ≠ password)
    (.credentialPreflight "the new password is not safe for every database consumer")

/-! ## Entries -/

/-- `physical.rstrip("\r\n")` -/
def bodyOf (physical : Text) : Text := physical.rdropWhile fun c => c = cr ∨ c = lf

/-- The line is neither empty nor a comment. -/
def isActive (physical : Text) : Bool :=
  bodyOf physical ≠ [] ∧ (bodyOf physical).head? ≠ some hash

/-- The test of a field, for which a star stands for everything. -/
def covers (actual expected : Text) : Bool := actual = codePoints "*" ∨ actual = expected

def DatabaseIdentity.matches (identity : DatabaseIdentity) (fields : PgpassFields) : Bool :=
  covers fields.host identity.host && covers fields.port (codePoints (toString identity.port)) &&
    covers fields.name identity.name && covers fields.user identity.user

/-- What the loop of `_matching_pgpass_entries` finds in one line. -/
def entryOf (identity : DatabaseIdentity) (physical : Text) : Except Raised (Option PgpassFields) :=
  if isActive physical then do
    let fields ← splitPgpassFields (bodyOf physical)
    .ok (if identity.matches fields then some fields else none)
  else .ok none

def matchingEntriesFrom (identity : DatabaseIdentity) :
    ℕ → List Text → Except Raised (List (ℕ × PgpassFields))
  | _, [] => .ok []
  | index, physical :: rest => do
    let entry ← entryOf identity physical
    let others ← matchingEntriesFrom identity (index + 1) rest
    .ok (entry.toList.map (fun fields => (index, fields)) ++ others)

/-- `_matching_pgpass_entries` -/
def matchingPgpassEntries (text : Text) (identity : DatabaseIdentity) :
    Except Raised (List (ℕ × PgpassFields)) :=
  matchingEntriesFrom identity 0 (splitlines text)

/-- The decoding and the search that both functions begin with. -/
def onlyEntry (raw : ByteArray) (identity : DatabaseIdentity) :
    Except Raised (Text × ℕ × PgpassFields) :=
  match decode raw with
  | none => .error (.credentialPreflight ".pgpass is not strict UTF-8")
  | some text => do
    match ← matchingPgpassEntries text identity with
    | [(index, fields)] => .ok (text, index, fields)
    | _ => .error (.credentialPreflight
        ".pgpass must contain exactly one entry matching the configured database identity")

def readPgpassPassword (raw : ByteArray) (identity : DatabaseIdentity) : Except Raised Text := do
  let (_, _, fields) ← onlyEntry raw identity
  .ok fields.password

/-- The positions of the colons that separate fields. -/
def separators : (escaped : Bool) → (index : ℕ) → Text → List ℕ
  | _, _, [] => []
  | true, index, _ :: rest => separators false (index + 1) rest
  | false, index, char :: rest =>
    if char = backslash then separators true (index + 1) rest
    else if char = colon then index :: separators false (index + 1) rest
    else separators false (index + 1) rest

def renderPgpassPasswordUpdate (raw : ByteArray) (identity : DatabaseIdentity) (password : Text) :
    Except Raised ByteArray := do
  let (text, targetIndex, _) ← onlyEntry raw identity
  let lines := splitlines text
  let physical := lines.getD targetIndex []
  let body := bodyOf physical
  let ending := physical.drop body.length
  match separators false 0 body with
  | [_, _, _, fourth] =>
    let escaped ← escapePgpassPassword password
    let written := body.take (fourth + 1) ++ escaped ++ ending
    match encode (lines.set targetIndex written).flatten with
    | some bytes => .ok bytes
    | none => .error .unicodeEncode
  | _ => .error (.credentialPreflight ".pgpass contains a malformed matching entry")

end IsadoraAir.DbCredentials

/-!
## The entries of the file

The search succeeds when every active line has five fields. It finds one entry
when one line matches, and then says which.
-/

namespace IsadoraAir.DbCredentials

open Text EnvConfig

variable {raw : ByteArray} {entries : List (ℕ × PgpassFields)} {text : Text}

section Entries

variable {identity : DatabaseIdentity} {physical : Text} {fields : PgpassFields} {lines : List Text}
  {index : ℕ}

/-- A line with an entry that matches is active, and its body splits into the entry. -/
theorem entryOf_eq_some :
    entryOf identity physical = .ok (some fields) ↔ isActive physical = true ∧
      splitPgpassFields (bodyOf physical) = .ok fields ∧ identity.matches fields = true := by
  unfold entryOf
  split_ifs with hactive
  · simp only [bind_eq_ok, hactive, true_and, Except.ok.injEq]
    constructor
    · rintro ⟨read, hread, hsome⟩
      split_ifs at hsome with hmatches
      cases hsome
      exact ⟨hread, hmatches⟩
    · rintro ⟨hread, hmatches⟩
      exact ⟨fields, hread, if_pos hmatches⟩
  · simp [hactive]

theorem matchingEntriesFrom_cons :
    matchingEntriesFrom identity index (physical :: lines) = .ok entries ↔
      ∃ entry others, entryOf identity physical = .ok entry ∧
        matchingEntriesFrom identity (index + 1) lines = .ok others ∧
        entry.toList.map (fun fields => (index, fields)) ++ others = entries := by
  simp only [matchingEntriesFrom, bind_eq_ok, Except.ok.injEq]
  constructor
  · rintro ⟨entry, hentry, others, hothers, h⟩
    exact ⟨entry, others, hentry, hothers, h⟩
  · rintro ⟨entry, others, hentry, hothers, h⟩
    exact ⟨entry, hentry, others, hothers, h⟩

theorem matchingEntriesFrom_eq_nil :
    matchingEntriesFrom identity index lines = .ok [] ↔
      ∀ physical ∈ lines, entryOf identity physical = .ok none := by
  induction lines generalizing index with
  | nil => simp [matchingEntriesFrom]
  | cons physical lines ih =>
    rw [matchingEntriesFrom_cons, List.forall_mem_cons]
    constructor
    · rintro ⟨entry, others, hentry, hothers, h⟩
      obtain ⟨hnone, rfl⟩ := List.append_eq_nil_iff.mp h
      obtain rfl : entry = none := by simpa using hnone
      exact ⟨hentry, ih.mp hothers⟩
    · rintro ⟨hentry, hlines⟩
      exact ⟨none, [], hentry, ih.mpr hlines, rfl⟩

/-- A single entry, with the line that it is in. -/
theorem matchingEntriesFrom_eq_singleton {found : ℕ} :
    matchingEntriesFrom identity index lines = .ok [(found, fields)] ↔
      ∃ before physical after, lines = before ++ physical :: after ∧
        found = index + before.length ∧ entryOf identity physical = .ok (some fields) ∧
        (∀ other ∈ before, entryOf identity other = .ok none) ∧
        ∀ other ∈ after, entryOf identity other = .ok none := by
  induction lines generalizing index with
  | nil => simp [matchingEntriesFrom]
  | cons physical lines ih =>
    rw [matchingEntriesFrom_cons]
    constructor
    · rintro ⟨entry, others, hentry, hothers, h⟩
      cases entry with
      | none =>
        obtain rfl : others = [(found, fields)] := h
        obtain ⟨before, line, after, rfl, rfl, hline, hbefore, hafter⟩ := ih.mp hothers
        refine ⟨physical :: before, line, after, rfl, ?_, hline, ?_, hafter⟩
        · rw [List.length_cons]
          omega
        · rw [List.forall_mem_cons]
          exact ⟨hentry, hbefore⟩
      | some read =>
        obtain ⟨heq, rfl⟩ := List.cons.inj h
        obtain ⟨rfl, rfl⟩ := Prod.mk.inj heq
        exact ⟨[], physical, lines, rfl, rfl, hentry, by simp, matchingEntriesFrom_eq_nil.mp hothers⟩
    · rintro ⟨before, line, after, hlines, rfl, hline, hbefore, hafter⟩
      cases before with
      | nil =>
        obtain ⟨rfl, rfl⟩ := List.cons.inj hlines
        exact ⟨some fields, [], hline, matchingEntriesFrom_eq_nil.mpr hafter, rfl⟩
      | cons first before =>
        obtain ⟨rfl, rfl⟩ := List.cons.inj hlines
        rw [List.forall_mem_cons] at hbefore
        have hplace : index + (physical :: before).length = index + 1 + before.length := by
          rw [List.length_cons]
          omega
        refine ⟨none, [(index + (physical :: before).length, fields)], hbefore.1, ?_, rfl⟩
        exact ih.mpr ⟨before, line, after, rfl, hplace, hline, hbefore.2, hafter⟩

/-- The search goes through when every active line has five fields, and finds what it counts. -/
theorem matchingEntriesFrom_eq_ok :
    (∃ entries, matchingEntriesFrom identity index lines = .ok entries) ↔
      ∀ physical ∈ lines, ∃ entry, entryOf identity physical = .ok entry := by
  induction lines generalizing index with
  | nil => simp [matchingEntriesFrom]
  | cons physical lines ih =>
    rw [List.forall_mem_cons]
    constructor
    · rintro ⟨entries, h⟩
      obtain ⟨entry, others, hentry, hothers, -⟩ := matchingEntriesFrom_cons.mp h
      exact ⟨⟨entry, hentry⟩, ih.mp ⟨others, hothers⟩⟩
    · rintro ⟨⟨entry, hentry⟩, hlines⟩
      obtain ⟨others, hothers⟩ := (@ih (index + 1)).mpr hlines
      exact ⟨_, matchingEntriesFrom_cons.mpr ⟨entry, others, hentry, hothers, rfl⟩⟩

end Entries

/-- The line has an entry that matches. -/
def isMatch (identity : DatabaseIdentity) (physical : Text) : Bool :=
  match entryOf identity physical with
  | .ok (some _) => true
  | _ => false

theorem length_matchingEntriesFrom {identity : DatabaseIdentity} {index : ℕ} {lines : List Text}

    (h : matchingEntriesFrom identity index lines = .ok entries) :
    entries.length = lines.countP (isMatch identity) := by
  induction lines generalizing index entries with
  | nil =>
    cases h
    rfl
  | cons physical lines ih =>
    obtain ⟨entry, others, hentry, hothers, rfl⟩ := matchingEntriesFrom_cons.mp h
    rw [List.countP_cons, ← ih hothers]
    cases entry with
    | none => simp [isMatch, hentry]
    | some fields => simp [isMatch, hentry]

/-! ### Files with one entry -/

/-- An active line does not have five fields. -/
def HasMalformedEntry (text : Text) : Prop :=
  ∃ physical ∈ splitlines text, isActive physical = true ∧
    ∀ fields, splitPgpassFields (bodyOf physical) ≠ .ok fields

/-- The file is text, its active lines are entries, and one of them matches. -/
def HasOneEntry (raw : ByteArray) (identity : DatabaseIdentity) : Prop :=
  ∃ text, decode raw = some text ∧ ¬HasMalformedEntry text ∧
    (splitlines text).countP (isMatch identity) = 1

theorem entryOf_eq_ok {identity : DatabaseIdentity} {physical : Text} :
    (∃ entry, entryOf identity physical = .ok entry) ↔
      (isActive physical = true → ∃ fields, splitPgpassFields (bodyOf physical) = .ok fields) := by
  unfold entryOf
  split_ifs with hactive
  · simp only [bind_eq_ok, hactive, true_imp_iff, Except.ok.injEq]
    constructor
    · rintro ⟨entry, fields, hfields, -⟩
      exact ⟨fields, hfields⟩
    · rintro ⟨fields, hfields⟩
      exact ⟨_, fields, hfields, rfl⟩
  · simp [hactive]

theorem not_hasMalformedEntry (identity : DatabaseIdentity) :
    ¬HasMalformedEntry text ↔ ∃ entries, matchingPgpassEntries text identity = .ok entries := by
  rw [matchingPgpassEntries, matchingEntriesFrom_eq_ok]
  simp only [entryOf_eq_ok]
  constructor
  · intro h physical hmem hactive
    by_contra hnone
    exact h ⟨physical, hmem, hactive, fun fields hfields => hnone ⟨fields, hfields⟩⟩
  · rintro h ⟨physical, hmem, hactive, hnone⟩
    obtain ⟨fields, hfields⟩ := h physical hmem hactive
    exact hnone fields hfields

theorem onlyEntry_eq_ok {identity : DatabaseIdentity} {index : ℕ} {fields : PgpassFields} :
    onlyEntry raw identity = .ok (text, index, fields) ↔
      decode raw = some text ∧ matchingPgpassEntries text identity = .ok [(index, fields)] := by
  unfold onlyEntry
  cases decode raw with
  | none => simp
  | some read =>
    simp only [Option.some.injEq, bind_eq_ok]
    constructor
    · rintro ⟨entries, hentries, h⟩
      split at h
      · cases h
        exact ⟨rfl, hentries⟩
      · cases h
    · rintro ⟨rfl, hentries⟩
      exact ⟨_, hentries, rfl⟩

theorem hasOneEntry_iff {identity : DatabaseIdentity} :
    HasOneEntry raw identity ↔ ∃ found, onlyEntry raw identity = .ok found := by
  constructor
  · rintro ⟨text, htext, hformed, hcount⟩
    obtain ⟨entries, hentries⟩ := (not_hasMalformedEntry identity).mp hformed
    have hlength := length_matchingEntriesFrom hentries
    rw [hcount] at hlength
    obtain ⟨⟨index, fields⟩, rfl⟩ := List.length_eq_one_iff.mp hlength
    exact ⟨_, onlyEntry_eq_ok.mpr ⟨htext, hentries⟩⟩
  · rintro ⟨⟨text, index, fields⟩, hfound⟩
    obtain ⟨htext, hentries⟩ := onlyEntry_eq_ok.mp hfound
    refine ⟨text, htext, (not_hasMalformedEntry identity).mpr ⟨_, hentries⟩, ?_⟩
    exact (length_matchingEntriesFrom hentries).symm

end IsadoraAir.DbCredentials
