import IsadoraAir.DbCredentials.Fields

/-!
# Rendering a new password

When the line of the entry ends with a boundary that only `splitlines` knows, it
is dropped with the old password, and the next line becomes part of the entry.
Every other line of the file stays what it is.
-/

namespace IsadoraAir.DbCredentials

open Text EnvConfig

variable {rest : List Text} {behind next written : Text}

/-! ## Lines and bodies -/

theorem bodyOf_append (xs ys : Text) :
    bodyOf (xs ++ ys) = if bodyOf ys = [] then bodyOf xs else xs ++ bodyOf ys :=
  rdropWhile_append ..

theorem bodyOf_of_unbroken {text : Text} (h : ∀ c ∈ text, isBoundary c = false) :
    bodyOf text = text := by
  refine List.rdropWhile_eq_self_iff.mpr ?_
  intro hne hlast
  have hplain := h _ (List.getLast_mem hne)
  rcases of_decide_eq_true hlast with heq | heq
  · rw [heq] at hplain
    exact absurd hplain (by decide)
  · rw [heq] at hplain
    exact absurd hplain (by decide)

/-- The line ends with a boundary that stays in its body. -/
def EndsOddly (physical : Text) : Prop := ∃ c ∈ (bodyOf physical).getLast?, isBoundary c = true

/-- A line ends with a line feed, a carriage return or both, or with the text, or oddly. -/
theorem exists_body {text physical : Text} {after : List Text}
    (h : splitlines text = physical :: after) :
    (∃ ending, physical = bodyOf physical ++ ending ∧ bodyOf ending = [] ∧
      (∀ c ∈ bodyOf physical, isBoundary c = false) ∧
      (ending = [] ∧ after = [] ∨ splitlines (ending ++ after.flatten) = ending :: after)) ∨
    (EndsOddly physical ∧ bodyOf physical = physical ∧ ∃ content c, physical = content ++ [c] ∧
      isBoundary c = true ∧ ∀ c ∈ content, isBoundary c = false) := by
  obtain ⟨content, ending, rfl, hcontent, hending⟩ := exists_ending h
  have hbody := bodyOf_of_unbroken hcontent
  have hregular : bodyOf ending = [] → bodyOf (content ++ ending) = content := by
    intro hnone
    rw [bodyOf_append, if_pos hnone, hbody]
  rcases hending with ⟨rfl, rfl⟩ | ⟨⟨c, rfl, hc⟩ | rfl, hsplit⟩
  · have hwhole := hregular rfl
    rw [hwhole]
    exact .inl ⟨[], rfl, rfl, hcontent, .inl ⟨rfl, rfl⟩⟩
  · by_cases hend : c = cr ∨ c = lf
    · have hnone : bodyOf [c] = [] := by
        refine List.rdropWhile_eq_nil_iff.mpr ?_
        intro d hd
        rw [List.mem_singleton.mp hd]
        exact decide_eq_true hend
      have hwhole := hregular hnone
      rw [hwhole]
      exact .inl ⟨[c], rfl, hnone, hcontent, .inr hsplit⟩
    · have hwhole : bodyOf (content ++ [c]) = content ++ [c] := by
        refine List.rdropWhile_concat_neg _ _ c ?_
        simpa using hend
      refine .inr ⟨⟨c, ?_, hc⟩, hwhole, content, c, rfl, hc, hcontent⟩
      rw [hwhole, List.getLast?_concat]
      rfl
  · have hwhole := hregular (by decide)
    rw [hwhole]
    exact .inl ⟨[cr, lf], rfl, by decide, hcontent, .inr hsplit⟩

/-- A body cannot both be free of boundaries and end with one. -/
theorem not_endsOddly {physical : Text} (h : ∀ c ∈ bodyOf physical, isBoundary c = false) :
    ¬EndsOddly physical := by
  rintro ⟨c, hlast, hc⟩
  rw [h c (List.mem_of_getLast? hlast)] at hc
  cases hc

/-! ## The lines of the rendered text -/

section Lines

variable {text physical pre old password ending : Text} {before after : List Text}
  {fields : PgpassFields}

theorem PasswordCut.pre_ne_nil {body : Text} (h : PasswordCut body pre old fields) : pre ≠ [] := by
  obtain ⟨init, rfl⟩ := h.separator
  simp

/-- Nothing before the password ends a line. -/
theorem PasswordCut.unbroken (hlines : splitlines text = physical :: after)
    (h : PasswordCut (bodyOf physical) pre old fields) : ∀ c ∈ pre, isBoundary c = false := by
  rcases exists_body hlines with ⟨ending, -, -, hbody, -⟩ | ⟨-, hwhole, content, last, hphysical,
    hlast, hcontent⟩
  · intro c hc
    refine hbody c ?_
    rw [h.body_eq]
    exact List.mem_append_left old hc
  · -- the boundary at the end is behind the separator
    have hsplit : content ++ [last] = pre ++ old := by
      rw [← hphysical, ← h.body_eq, hwhole]
    obtain ⟨init, rfl⟩ := h.separator
    rcases List.eq_nil_or_concat old with rfl | ⟨front, c, rfl⟩
    · rw [List.append_nil] at hsplit
      obtain ⟨-, hcolon⟩ := List.append_inj' hsplit rfl
      rw [(List.cons.inj hcolon).1] at hlast
      exact absurd hlast (by decide)
    · rw [List.concat_eq_append, ← List.append_assoc] at hsplit
      obtain ⟨rfl, -⟩ := List.append_inj' hsplit rfl
      intro c hc
      exact hcontent c (List.mem_append_left front hc)

/-- The lines before the entry stay what they are. -/
theorem PasswordCut.splitlines_behind (hlines : splitlines text = before ++ physical :: after)
    (h : PasswordCut (bodyOf physical) pre old fields) (hphysical : bodyOf physical <+: physical)
    (behind : Text) :
    splitlines (before.flatten ++ (pre ++ behind)) = before ++ splitlines (pre ++ behind) := by
  refine splitlines_replace hlines (List.cons_ne_nil _ _) ?_
  obtain ⟨rest, hrest⟩ := hphysical
  rw [List.flatten_cons, ← hrest, h.body_eq, List.append_assoc, List.append_assoc,
    List.head?_append_of_ne_nil _ h.pre_ne_nil, List.head?_append_of_ne_nil _ h.pre_ne_nil]

theorem bodyOf_isPrefix (physical : Text) : bodyOf physical <+: physical :=
  List.rdropWhile_prefix _ _

/-- What the line of the entry becomes: it takes in the next line when its own end is dropped. -/
theorem PasswordCut.splitlines_written (hlines : splitlines text = before ++ physical :: after)
    (h : PasswordCut (bodyOf physical) pre old fields) (hplain : IsPlain password) :
    (∃ ending, physical.drop (bodyOf physical).length = ending ∧ bodyOf ending = [] ∧
      (EndsOddly physical → after = []) ∧
      splitlines (before.flatten ++ (pre ++ (password ++ (ending ++ after.flatten)))) =
        before ++ (pre ++ (password ++ ending)) :: after) ∨
    (EndsOddly physical ∧ physical.drop (bodyOf physical).length = [] ∧
      ∃ next rest, after = next :: rest ∧
        splitlines (before.flatten ++ (pre ++ (password ++ after.flatten))) =
          before ++ (pre ++ (password ++ next)) :: rest) := by
  have htail := splitlines_flatten_of_append hlines
  have hpre := h.unbroken htail
  have hunbroken : ∀ c ∈ pre ++ password, isBoundary c = false := by
    intro c hc
    rcases List.mem_append.mp hc with hc | hc
    · exact hpre c hc
    · exact hplain.unbroken c hc
  have hne : pre ++ password ≠ [] := by
    simp [h.pre_ne_nil]
  have hbehind := h.splitlines_behind hlines (bodyOf_isPrefix physical)
  have hlast : splitlines (pre ++ password) = [pre ++ password] := splitlines_of_plain hne hunbroken
  rcases exists_body htail with ⟨ending, hphysical, hnone, hbody, hending⟩ | ⟨hodd, hwhole, -⟩
  · have hdrop : physical.drop (bodyOf physical).length = ending := by
      have hleft : (bodyOf physical ++ ending).drop (bodyOf physical).length = ending :=
        List.drop_left
      rwa [← hphysical] at hleft
    refine .inl ⟨ending, hdrop, hnone, fun hodd => absurd hodd (not_endsOddly hbody), ?_⟩
    rw [hbehind]
    rcases hending with ⟨rfl, rfl⟩ | hsplit
    · simp only [List.flatten_nil, List.append_nil, hlast]
    · rw [← List.append_assoc pre, splitlines_append_of_cons hunbroken hsplit, List.append_assoc]
  · have hdrop : physical.drop (bodyOf physical).length = [] := by
      rw [hwhole, List.drop_length]
    cases after with
    | nil =>
      refine .inl ⟨[], hdrop, rfl, fun _ => rfl, ?_⟩
      rw [hbehind]
      simp only [List.flatten_nil, List.append_nil, hlast]
    | cons next rest =>
      refine .inr ⟨hodd, hdrop, next, rest, rfl, ?_⟩
      have hnext : splitlines (next :: rest).flatten = next :: rest := by
        have hsplit : splitlines (physical :: next :: rest).flatten = [physical] ++ next :: rest :=
          htail
        exact splitlines_flatten_of_append hsplit
      rw [hbehind, ← List.append_assoc pre, splitlines_append_of_cons hunbroken hnext,
        List.append_assoc]

end Lines

/-! ## Updates -/

/-- The file is these three parts, and the one in the middle is the password field of its entry. -/
structure IsPasswordField (identity : DatabaseIdentity) (raw front field back : ByteArray) :
    Prop where
  parts : raw = front ++ field ++ back
  entry : ∃ text before physical after pre old ending, ∃ fields : PgpassFields,
    decode raw = some text ∧ splitlines text = before ++ physical :: after ∧
    entryOf identity physical = .ok (some fields) ∧
    physical = pre ++ (old ++ ending) ∧ bodyOf physical = pre ++ old ∧
    splitPgpassFields pre = .ok { fields with password := [] } ∧
    encode (before.flatten ++ pre) = some front ∧ encode old = some field ∧
    encode (ending ++ after.flatten) = some back

/-- The update writes the password into its field, it is read back, and one entry matches. -/
def Updates (raw : ByteArray) (identity : DatabaseIdentity) (password : Text) : Prop :=
  ∃ out, renderPgpassPasswordUpdate raw identity password = .ok out ∧
    (∃ front field back new, IsPasswordField identity raw front field back ∧
      encode password = some new ∧ out = front ++ new ++ back) ∧
    readPgpassPassword out identity = .ok password ∧ HasOneEntry out identity

/-- Neither function gives a result. -/
def Refuses (raw : ByteArray) (identity : DatabaseIdentity) (password : Text) : Prop :=
  (∃ e, readPgpassPassword raw identity = .error e) ∧
    ∃ e, renderPgpassPasswordUpdate raw identity password = .error e

/-- The line of the entry ends oddly, and the next one is not blank. -/
def JoinsNextLine (raw : ByteArray) (identity : DatabaseIdentity) : Prop :=
  ∃ text before physical next rest, decode raw = some text ∧
    splitlines text = before ++ physical :: next :: rest ∧ isMatch identity physical = true ∧
    EndsOddly physical ∧ bodyOf next ≠ []

section Rendering

variable {raw : ByteArray} {identity : DatabaseIdentity} {text physical pre old password : Text}
  {before after : List Text} {fields : PgpassFields}

theorem refuses_of_not_hasOneEntry (h : ¬HasOneEntry raw identity) :
    Refuses raw identity password := by
  rw [hasOneEntry_iff] at h
  cases hfound : onlyEntry raw identity with
  | ok found => exact absurd ⟨found, hfound⟩ h
  | error e =>
    refine ⟨⟨e, ?_⟩, e, ?_⟩
    · rw [readPgpassPassword, hfound]
      rfl
    · rw [renderPgpassPasswordUpdate, hfound]
      rfl

/-- The text with the new password before what followed the line's body. -/
def writtenText (before after : List Text) (physical pre password : Text) : Text :=
  before.flatten ++ (pre ++ (password ++ (physical.drop (bodyOf physical).length ++ after.flatten)))

/-- What is written is the line of the entry with the password behind its fourth separator. -/
theorem render_eq {first second third fourth : ℕ}
    (hfound : onlyEntry raw identity = .ok (text, before.length, fields))
    (hlines : splitlines text = before ++ physical :: after)
    (hseparators : separators false 0 (bodyOf physical) = [first, second, third, fourth])
    (hescaped : escapePgpassPassword password = .ok password) {out : ByteArray}
    (hout : encode (writtenText before after physical ((bodyOf physical).take (fourth + 1))
      password) = some out) :
    renderPgpassPasswordUpdate raw identity password = .ok out := by
  have hphysical : (splitlines text).getD before.length [] = physical := by
    rw [hlines]
    simp
  have hset : ∀ written, ((splitlines text).set before.length written).flatten =
      before.flatten ++ (written ++ after.flatten) := by
    intro written
    rw [hlines]
    simp
  rw [writtenText] at hout
  simp only [renderPgpassPasswordUpdate, hfound, bind, Except.bind, hphysical, hseparators,
    hescaped, hset, List.append_assoc, hout]

/-- Whether a line is active shows before the password. -/
theorem PasswordCut.isActive_written
    (h : PasswordCut (bodyOf physical) pre old fields) (hactive : isActive physical = true)
    (hbody : bodyOf written = pre ++ behind) : isActive written = true := by
  have hpre := h.pre_ne_nil
  rw [isActive, decide_eq_true_eq, h.body_eq, List.head?_append_of_ne_nil _ hpre] at hactive
  rw [isActive, decide_eq_true_eq, hbody, List.head?_append_of_ne_nil _ hpre]
  exact ⟨List.append_ne_nil_of_left_ne_nil hpre behind, hactive.2⟩

/-- A line with the new password behind the fields of the entry is its entry. -/
theorem entryOf_written (hentry : entryOf identity physical = .ok (some fields))
    (hcut : PasswordCut (bodyOf physical) pre old fields) (hplain : IsPlain password)
    (hbody : bodyOf written = pre ++ password) :
    entryOf identity written = .ok (some { fields with password := password }) := by
  obtain ⟨hactive, -, hmatches⟩ := entryOf_eq_some.mp hentry
  refine entryOf_eq_some.mpr ⟨hcut.isActive_written hactive hbody, ?_, hmatches⟩
  rw [hbody]
  exact hcut.splitPgpassFields_written hplain

/-- With more text behind the new password the line has no entry, or one with another password. -/
theorem entryOf_joined {entry : Option PgpassFields}
    (hentry : entryOf identity physical = .ok (some fields))
    (hcut : PasswordCut (bodyOf physical) pre old fields) (hplain : IsPlain password)
    (hbehind : behind ≠ []) (hbody : bodyOf written = pre ++ (password ++ behind))
    (hwritten : entryOf identity written = .ok entry) :
    ∃ read, entry = some read ∧ read.password ≠ password := by
  obtain ⟨hactive, -, hmatches⟩ := entryOf_eq_some.mp hentry
  have hactive' := hcut.isActive_written hactive hbody
  obtain ⟨read, hread⟩ := entryOf_eq_ok.mp ⟨entry, hwritten⟩ hactive'
  have hjoined := hread
  rw [hbody] at hjoined
  obtain ⟨hpassword, hsame⟩ := hcut.splitPgpassFields_joined hplain hbehind hjoined
  have hmatches' : identity.matches read = true := by
    rw [← hsame] at hmatches
    exact hmatches
  have hsome := entryOf_eq_some.mpr ⟨hactive', hread, hmatches'⟩
  rw [hwritten, Except.ok.injEq] at hsome
  exact ⟨read, hsome, hpassword⟩

/-- The file with one entry, cut around its password. -/
structure CutFile (raw : ByteArray) (identity : DatabaseIdentity)
    (text physical pre old : Text) (before after : List Text) (fields : PgpassFields)
    (front field back : ByteArray) : Prop where
  decoded : decode raw = some text
  lines : splitlines text = before ++ physical :: after
  entry : entryOf identity physical = .ok (some fields)
  before_others : ∀ other ∈ before, entryOf identity other = .ok none
  after_others : ∀ other ∈ after, entryOf identity other = .ok none
  cut : PasswordCut (bodyOf physical) pre old fields
  parts : raw = front ++ field ++ back
  front_eq : encode (before.flatten ++ pre) = some front
  field_eq : encode old = some field
  back_eq : encode (physical.drop (bodyOf physical).length ++ after.flatten) = some back

theorem append_drop_bodyOf (physical : Text) :
    bodyOf physical ++ physical.drop (bodyOf physical).length = physical :=
  (List.prefix_iff_eq_append.mp (bodyOf_isPrefix physical))

variable {front field back new : ByteArray}

theorem CutFile.isPasswordField
    (h : CutFile raw identity text physical pre old before after fields front field back) :
    IsPasswordField identity raw front field back := by
  have hphysical := append_drop_bodyOf physical
  rw [h.cut.body_eq, List.append_assoc] at hphysical
  have hpre : splitPgpassFields pre = .ok { fields with password := [] } := by
    have hsplits := h.cut.splits []
    rw [List.append_nil] at hsplits
    rw [splitPgpassFields_eq_ok, hsplits]
    rfl
  exact ⟨h.parts, text, before, physical, after, pre, old, _, fields, h.decoded, h.lines, h.entry,
    hphysical.symm, h.cut.body_eq, hpre, h.front_eq, h.field_eq, by rw [← h.cut.body_eq]; exact h.back_eq⟩

theorem CutFile.encode_written
    (h : CutFile raw identity text physical pre old before after fields front field back)
    (hnew : encode password = some new) :
    encode (writtenText before after physical pre password) = some (front ++ new ++ back) := by
  rw [writtenText, ← List.append_assoc, encode_append]
  exact ⟨front, new ++ back, h.front_eq, encode_append.mpr ⟨new, back, hnew, h.back_eq, rfl⟩,
    ByteArray.append_assoc.symm⟩

/-- A file with one entry is cut around its password, and the update writes between the parts. -/
theorem exists_cutFile (hone : HasOneEntry raw identity)
    (hescaped : escapePgpassPassword password = .ok password) (hnew : encode password = some new) :
    ∃ text physical pre old before after fields front field back,
      CutFile raw identity text physical pre old before after fields front field back ∧
      renderPgpassPasswordUpdate raw identity password = .ok (front ++ new ++ back) := by
  obtain ⟨⟨text, index, fields⟩, hfound⟩ := hasOneEntry_iff.mp hone
  obtain ⟨htext, hentries⟩ := onlyEntry_eq_ok.mp hfound
  obtain ⟨before, physical, after, hlines, hindex, hentry, hbefore, hafter⟩ :=
    matchingEntriesFrom_eq_singleton.mp hentries
  rw [Nat.zero_add] at hindex
  subst hindex
  obtain ⟨first, second, third, fourth, hseparators, hcut⟩ :=
    exists_cut (entryOf_eq_some.mp hentry).2.1
  have hwhole : text = before.flatten ++ (bodyOf physical).take (fourth + 1) ++
      ((bodyOf physical).drop (fourth + 1) ++
        (physical.drop (bodyOf physical).length ++ after.flatten)) := by
    have hphysical : physical = (bodyOf physical).take (fourth + 1) ++
        ((bodyOf physical).drop (fourth + 1) ++ physical.drop (bodyOf physical).length) := by
      rw [← List.append_assoc, List.take_append_drop]
      exact (append_drop_bodyOf physical).symm
    rw [← flatten_splitlines text, hlines, List.flatten_append, List.flatten_cons]
    conv_lhs => rw [hphysical]
    simp only [List.append_assoc]
  have hraw := encode_of_decode htext
  rw [hwhole] at hraw
  obtain ⟨front, rest, hfront, hrest, hparts⟩ := encode_append.mp hraw
  obtain ⟨field, back, hfield, hback, rfl⟩ := encode_append.mp hrest
  rw [← ByteArray.append_assoc] at hparts
  have hfile : CutFile raw identity text physical _ _ before after fields front field back :=
    ⟨htext, hlines, hentry, hbefore, hafter, hcut, hparts.symm, hfront, hfield, hback⟩
  exact ⟨_, _, _, _, _, _, _, _, _, _, hfile,
    render_eq hfound hlines hseparators hescaped (hfile.encode_written hnew)⟩

/-- The update is right where the new lines differ from the old ones in the entry's only, up to a
blank line that the entry takes in. -/
theorem CutFile.updates
    (h : CutFile raw identity text physical pre old before after fields front field back)
    (hplain : IsPlain password) (hnew : encode password = some new)
    (hrender : renderPgpassPasswordUpdate raw identity password = .ok (front ++ new ++ back))
    (hlines : splitlines (writtenText before after physical pre password) =
      before ++ (pre ++ (password ++ next)) :: rest)
    (hblank : bodyOf next = []) (hrest : rest ⊆ after) : Updates raw identity password := by
  have hbody : bodyOf (pre ++ (password ++ next)) = pre ++ password := by
    have hkept : bodyOf password = password := bodyOf_of_unbroken hplain.unbroken
    have hpassword : bodyOf (password ++ next) = password := by
      rw [bodyOf_append, if_pos hblank, hkept]
    rw [bodyOf_append, hpassword, if_neg hplain.nonempty]
  have hentry := entryOf_written h.entry h.cut hplain hbody
  have hfound : onlyEntry (front ++ new ++ back) identity =
      .ok (writtenText before after physical pre password, before.length,
        { fields with password := password }) := by
    refine onlyEntry_eq_ok.mpr ⟨decode_of_encode (h.encode_written hnew), ?_⟩
    refine matchingEntriesFrom_eq_singleton.mpr ⟨before, _, rest, hlines, ?_, hentry,
      h.before_others, ?_⟩
    · rw [Nat.zero_add]
    · intro other hother
      exact h.after_others other (hrest hother)
  refine ⟨_, hrender, ⟨front, field, back, new, h.isPasswordField, hnew, rfl⟩, ?_, ?_⟩
  · rw [readPgpassPassword, hfound]
    rfl
  · exact hasOneEntry_iff.mpr ⟨_, hfound⟩

/-- Where the entry takes in a line that is not blank, the new password is not read back. -/
theorem CutFile.not_updates
    (h : CutFile raw identity text physical pre old before after fields front field back)
    (hplain : IsPlain password) (hnew : encode password = some new)
    (hrender : renderPgpassPasswordUpdate raw identity password = .ok (front ++ new ++ back))
    (hlines : splitlines (writtenText before after physical pre password) =
      before ++ (pre ++ (password ++ next)) :: rest)
    (hnext : bodyOf next ≠ []) : ¬Updates raw identity password := by
  rintro ⟨out, hout, -, hread, -⟩
  rw [hrender, Except.ok.injEq] at hout
  subst hout
  obtain ⟨⟨read, index, found⟩, hfound, hpassword⟩ := bind_eq_ok.mp hread
  obtain ⟨hdecoded, hentries⟩ := onlyEntry_eq_ok.mp hfound
  rw [decode_of_encode (h.encode_written hnew), Option.some.injEq] at hdecoded
  subst hdecoded
  have hbody : bodyOf (pre ++ (password ++ next)) = pre ++ (password ++ bodyOf next) := by
    have hjoined : bodyOf (password ++ next) = password ++ bodyOf next := by
      rw [bodyOf_append, if_neg hnext]
    rw [bodyOf_append, hjoined, if_neg (by simp [hplain.nonempty])]
  obtain ⟨before', physical', after', hsplit, -, hentry', hbefore', hafter'⟩ :=
    matchingEntriesFrom_eq_singleton.mp hentries
  have hmem : pre ++ (password ++ next) ∈ before' ++ physical' :: after' := by
    rw [← hsplit, hlines]
    simp
  have hjoined : ∀ {entry}, entryOf identity (pre ++ (password ++ next)) = .ok entry →
      ∃ read, entry = some read ∧ read.password ≠ password :=
    fun hwritten => entryOf_joined h.entry h.cut hplain hnext hbody hwritten
  rcases List.mem_append.mp hmem with hmem | hmem
  · obtain ⟨_, hnone, -⟩ := hjoined (hbefore' _ hmem)
    cases hnone
  · rcases List.mem_cons.mp hmem with heq | hmem
    · rw [← heq] at hentry'
      obtain ⟨_, hsome, hother⟩ := hjoined hentry'
      cases hsome
      exact hother (Except.ok.inj hpassword)
    · obtain ⟨_, hnone, -⟩ := hjoined (hafter' _ hmem)
      cases hnone

/-- In a file with one entry, the line that matches is the one of the cut. -/
theorem CutFile.joinsNextLine_iff
    (h : CutFile raw identity text physical pre old before after fields front field back) :
    JoinsNextLine raw identity ↔
      EndsOddly physical ∧ ∃ next rest, after = next :: rest ∧ bodyOf next ≠ [] := by
  have hmatch : isMatch identity physical = true := by
    rw [isMatch, h.entry]
  constructor
  · rintro ⟨text', before', physical', next, rest, htext, hlines, hmatch', hodd, hnext⟩
    rw [h.decoded, Option.some.injEq] at htext
    subst htext
    have hother : ∀ lines : List Text, (∀ other ∈ lines, entryOf identity other = .ok none) →
        physical' ∉ lines := by
      intro lines hnone hmem
      rw [isMatch, hnone physical' hmem] at hmatch'
      cases hmatch'
    rw [h.lines, List.append_cons_inj_of_notMem (hother before h.before_others)
      (hother after h.after_others)] at hlines
    obtain ⟨-, rfl, rfl⟩ := hlines
    exact ⟨hodd, next, rest, rfl, hnext⟩
  · rintro ⟨hodd, next, rest, rfl, hnext⟩
    exact ⟨text, before, physical, next, rest, h.decoded, h.lines, hmatch, hodd, hnext⟩

theorem CutFile.updates_iff
    (h : CutFile raw identity text physical pre old before after fields front field back)
    (hplain : IsPlain password) (hnew : encode password = some new)
    (hrender : renderPgpassPasswordUpdate raw identity password = .ok (front ++ new ++ back)) :
    Updates raw identity password ↔ ¬JoinsNextLine raw identity := by
  rw [h.joinsNextLine_iff]
  rcases h.cut.splitlines_written h.lines hplain with ⟨ending, hending, hblank, hlast, hlines⟩ |
    ⟨hodd, hending, next, rest, rfl, hlines⟩
  · rw [← hending] at hlines hblank
    refine iff_of_true (h.updates hplain hnew hrender hlines hblank (List.Subset.refl after)) ?_
    rintro ⟨hodd, next, rest, rfl, -⟩
    cases hlast hodd
  · have hwritten : splitlines (writtenText before (next :: rest) physical pre password) =
        before ++ (pre ++ (password ++ next)) :: rest := by
      rw [writtenText, hending]
      exact hlines
    by_cases hnext : bodyOf next = []
    · refine iff_of_true (h.updates hplain hnew hrender hwritten hnext (List.subset_cons_self ..)) ?_
      rintro ⟨-, next', rest', heq, hne⟩
      cases heq
      exact hne hnext
    · refine iff_of_false (h.not_updates hplain hnew hrender hwritten hnext) ?_
      exact not_not.mpr ⟨hodd, next, rest, rfl, hnext⟩

theorem updates_iff (hvalid : validateNewPassword password = .ok ())
    (hone : HasOneEntry raw identity) :
    Updates raw identity password ↔ ¬JoinsNextLine raw identity := by
  obtain ⟨hplain, ⟨new, hnew⟩, hescaped⟩ := validateNewPassword_eq_ok hvalid
  obtain ⟨text, physical, pre, old, before, after, fields, front, field, back, hfile, hrender⟩ :=
    exists_cutFile hone hescaped hnew
  exact hfile.updates_iff hplain hnew hrender

end Rendering

/-- A file with one entry is updated around its password and any other is refused, unless the line
of the entry ends oddly before a line that is not blank. -/
theorem pgpass_updates_iff (raw : ByteArray) (identity : DatabaseIdentity) {password : Text}
    (hvalid : validateNewPassword password = .ok ()) :
    ((HasOneEntry raw identity → Updates raw identity password) ∧
      (¬HasOneEntry raw identity → Refuses raw identity password)) ↔
      ¬(HasOneEntry raw identity ∧ JoinsNextLine raw identity) := by
  have hrefuses : ¬HasOneEntry raw identity → Refuses raw identity password :=
    refuses_of_not_hasOneEntry
  by_cases hone : HasOneEntry raw identity
  · have hiff := updates_iff hvalid hone
    constructor
    · intro h hjoins
      exact hiff.mp (h.1 hone) hjoins.2
    · intro h
      exact ⟨fun _ => hiff.mpr fun hjoins => h ⟨hone, hjoins⟩, hrefuses⟩
  · exact iff_of_true ⟨fun h => absurd h hone, hrefuses⟩ fun h => hone h.1

/-! ## A file with a vertical tab -/

def samplePassword : Text := List.replicate 32 (.scalar 'a')

def sampleIdentity : DatabaseIdentity := ⟨codePoints "h", 1, codePoints "d", codePoints "u"⟩

/-- The line of the entry ends with a vertical tab, and a comment follows. -/
def sampleChars : List Char := "h:1:d:u:old\x0b# note\n".toList

def sampleFile : ByteArray := (String.ofList sampleChars).toUTF8

theorem samplePassword_valid : validateNewPassword samplePassword = .ok () := rfl

theorem pgpass_updates_iff_sample :
    ((HasOneEntry sampleFile sampleIdentity →
        Updates sampleFile sampleIdentity samplePassword) ∧
      (¬HasOneEntry sampleFile sampleIdentity →
        Refuses sampleFile sampleIdentity samplePassword)) ↔
      ¬(HasOneEntry sampleFile sampleIdentity ∧ JoinsNextLine sampleFile sampleIdentity) :=
  pgpass_updates_iff sampleFile sampleIdentity samplePassword_valid

theorem sampleFile_hasOneEntry : HasOneEntry sampleFile sampleIdentity := by
  have hdecode : decode sampleFile = some (sampleChars.map .scalar) :=
    decode_of_encode (encode_eq_some.mpr ⟨sampleChars, rfl, rfl⟩)
  refine hasOneEntry_iff.mpr ⟨(_, 0, ⟨codePoints "h", codePoints "1", codePoints "d",
    codePoints "u", codePoints "old\x0b"⟩), onlyEntry_eq_ok.mpr ⟨hdecode, ?_⟩⟩
  rfl

/-- The comment becomes part of the password. -/
theorem update_joins_comment :
    HasOneEntry sampleFile sampleIdentity ∧ ¬Updates sampleFile sampleIdentity samplePassword := by
  refine ⟨sampleFile_hasOneEntry, ?_⟩
  rw [updates_iff samplePassword_valid sampleFile_hasOneEntry, not_not]
  refine ⟨sampleChars.map .scalar, [], codePoints "h:1:d:u:old\x0b", codePoints "# note\n", [],
    decode_of_encode (encode_eq_some.mpr ⟨sampleChars, rfl, rfl⟩), rfl, rfl, ?_, by decide⟩
  exact ⟨.scalar '\x0b', rfl, rfl⟩

end IsadoraAir.DbCredentials
