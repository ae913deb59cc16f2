import IsadoraAir.EnvConfig.Preservation

/-!
# Rewriting the database password line

The password line is found between line feeds only. A carriage return inside it
hides further lines, which go with it; one inside a later line can hide another
assignment of the password, which the reader then prefers.
-/

namespace IsadoraAir.EnvConfig

open Text

/-- The scanner's password line holds nothing but assignments of the password, and no
assignment hidden after it says something else. -/
def ReadAsOneLine (password text : Text) : Prop :=
  ∀ before line after, feedLines text = before ++ line :: after →
    activeKey line = some databasePassword →
      (∀ piece ∈ universalLines line, activeKey piece.text = some databasePassword) ∧
        ∀ value, (repositoryData (joinLines after)).get? databasePassword = some value →
          value = password

section Shape

variable {old written : Text} {before after : List Text} {line : Text}

/-- A text around one of its lines, and the same text with another line there. -/
structure Around (old new : Text) (before after : List Text) (line written rest : Text) : Prop where
  starts : rest = [] ∨ ∃ more, rest = lf :: more
  old_eq : old = joinLines before ++ (line ++ rest)
  new_eq : new = joinLines before ++ (written ++ rest)
  tail : (universalLines rest.tail).map Line.text = (universalLines (joinLines after)).map Line.text

theorem exists_around (hlines : feedLines old = before ++ line :: after)
    (written : Text) : ∃ rest, Around old
      (keepFinalNewline old (joinLines (before ++ written :: after))) before after line written
        rest := by
  have hne : old ≠ [] := by
    rintro rfl
    simp [feedLines] at hlines
  by_cases hend : old.getLast? = some lf
  · refine ⟨lf :: joinLines after, .inr ⟨_, rfl⟩, ?_, ?_, rfl⟩
    · rw [← joinLines_feedLines hend, hlines]
      simp
    · simp [keepFinalNewline, hend]
  · obtain ⟨lines, last, hlast, hlastne, hold⟩ := exists_last_feedLines hne hend
    have hkeep (rendered : Text) : keepFinalNewline old rendered = rendered.dropLast := by
      simp [keepFinalNewline, hne, hend]
    rw [hlines] at hlast
    rcases List.eq_nil_or_concat after with rfl | ⟨init, final, rfl⟩
    · obtain ⟨rfl, hline⟩ := List.append_inj' hlast rfl
      obtain rfl : line = last := by simpa using hline
      refine ⟨[], .inl rfl, by simpa using hold, ?_, rfl⟩
      rw [hkeep, joinLines_append, joinLines_cons, joinLines_nil, ← List.append_assoc,
        List.dropLast_concat]
      simp
    · rw [List.concat_eq_append] at hlines hlast ⊢
      have hsplit : (before ++ line :: init) ++ [final] = lines ++ [last] := by
        simpa using hlast
      obtain ⟨rfl, hfinal⟩ := List.append_inj' hsplit rfl
      obtain rfl : final = last := by simpa using hfinal
      have hmem : final ∈ feedLines old := by simp [hlines]
      have hlf := lf_not_mem_feedLines hmem
      refine ⟨lf :: (joinLines init ++ final), .inr ⟨_, rfl⟩, by simpa using hold, ?_, ?_⟩
      · have hjoin : joinLines (before ++ written :: (init ++ [final])) =
            joinLines before ++ (written ++ lf :: (joinLines init ++ final)) ++ [lf] := by
          simp
        rw [hkeep, hjoin, List.dropLast_concat]
      · rw [List.tail_cons, universalLines_joinLines_append, joinLines_append,
          universalLines_joinLines_append]
        simp [map_text_universalLines_append_lf hlastne hlf]

theorem Around.universalLines_eq {new rest : Text}
    (h : Around old new before after line written rest) :
    ∃ ahead piece, universalLines old =
        ahead ++ (universalLines (line ++ piece) ++ universalLines rest.tail) ∧
      universalLines new =
        ahead ++ (universalLines (written ++ piece) ++ universalLines rest.tail) ∧
      (piece = [] ∨ piece = [lf]) := by
  refine ⟨before.flatMap fun line => universalLines (line ++ [lf]), ?_⟩
  rcases h.starts with rfl | ⟨more, rfl⟩
  · refine ⟨[], ?_, ?_, .inl rfl⟩
    · rw [h.old_eq, universalLines_joinLines_append]
      simp [universalLines]
    · rw [h.new_eq, universalLines_joinLines_append]
      simp [universalLines]
  · refine ⟨[lf], ?_, ?_, .inr rfl⟩
    · rw [h.old_eq, universalLines_joinLines_append, universalLines_append_lf]
      rfl
    · rw [h.new_eq, universalLines_joinLines_append, universalLines_append_lf]
      rfl

end Shape

theorem map_text_universalLines_append {line piece : Text} (hne : line ≠ []) (hlf : lf ∉ line)
    (hpiece : piece = [] ∨ piece = [lf]) :
    (universalLines (line ++ piece)).map Line.text = (universalLines line).map Line.text := by
  rcases hpiece with rfl | rfl
  · rw [List.append_nil]
  · exact map_text_universalLines_append_lf hne hlf

section Reading

variable {old new rest line encoded password : Text} {before after : List Text}

/-- The values of the new text, from the lines before and after the written one. -/
theorem Around.get?_new (h : Around old new before after line (assign databasePassword encoded) rest)
    (hencoded : encodeEnvValue password = .ok encoded) (key : Text) :
    ∃ ahead, (repositoryData new).get? key =
        ((repositoryData (joinLines after)).get? key).or
          (if key = databasePassword then some password else (dataOf ahead).get? key) ∧
      (line ≠ [] → lf ∉ line → (repositoryData old).get? key =
        ((repositoryData (joinLines after)).get? key).or
          (((repositoryData line).get? key).or ((dataOf ahead).get? key))) := by
  obtain ⟨ahead, piece, hold, hnew, hpiece⟩ := h.universalLines_eq
  obtain ⟨hlf, hcr⟩ := lf_cr_not_mem_assign plainKey_databasePassword hencoded
  have hne : assign databasePassword encoded ≠ [] := by simp [assign]
  have hwritten : (universalLines (assign databasePassword encoded ++ piece)).map Line.text =
      [assign databasePassword encoded] := by
    rw [map_text_universalLines_append hne hlf hpiece, universalLines_of_not_mem hlf hcr, if_neg hne]
    rfl
  refine ⟨ahead.map Line.text, ?_, fun hline hlineLf => ?_⟩
  · simp only [repositoryData, hnew, List.map_append, hwritten, h.tail]
    rw [← List.append_assoc, get?_dataOf_append, get?_dataOf_concat,
      activeKey_assign plainKey_databasePassword hencoded,
      assignment_assign plainKey_databasePassword hencoded]
    simp [eq_comm]
  · simp only [repositoryData, hold, List.map_append, h.tail,
      map_text_universalLines_append hline hlineLf hpiece]
    rw [get?_dataOf_append, get?_dataOf_append, Option.or_assoc]

/-- The other lines survive exactly when the replaced line has none of them in it. -/
theorem Around.forall₂_unchanged
    (h : Around old new before after line (assign databasePassword encoded) rest)
    (hencoded : encodeEnvValue password = .ok encoded) (hne : line ≠ []) (hline : lf ∉ line) :
    List.Forall₂ Unchanged (otherLines [databasePassword] old)
        (otherLines [databasePassword] new) ↔
      ∀ piece ∈ universalLines line, activeKey piece.text = some databasePassword := by
  obtain ⟨ahead, piece, hold, hnew, hpiece⟩ := h.universalLines_eq
  obtain ⟨hlf, hcr⟩ := lf_cr_not_mem_assign plainKey_databasePassword hencoded
  have hother (lines : List Line) : (∀ l ∈ lines.map Line.text, activeKey l = some databasePassword) ↔
      lines.filter (fun l => ∀ key ∈ [databasePassword], activeKey l.text ≠ some key) = [] := by
    simp [List.filter_eq_nil_iff]
  have hwritten : (universalLines (assign databasePassword encoded ++ piece)).filter
      (fun l => ∀ key ∈ [databasePassword], activeKey l.text ≠ some key) = [] := by
    have hassign : assign databasePassword encoded ≠ [] := by simp [assign]
    rw [← hother, map_text_universalLines_append hassign hlf hpiece,
      universalLines_of_not_mem hlf hcr, if_neg hassign]
    simp [activeKey_assign plainKey_databasePassword hencoded]
  have hpieces : (∀ l ∈ universalLines line, activeKey l.text = some databasePassword) ↔
      (universalLines (line ++ piece)).filter
        (fun l => ∀ key ∈ [databasePassword], activeKey l.text ≠ some key) = [] := by
    rw [← hother, map_text_universalLines_append hne hline hpiece]
    simp
  rw [hpieces]
  simp only [otherLines, hold, hnew, List.filter_append, hwritten, List.nil_append]
  constructor
  · intro hsame
    have hlength := hsame.length_eq
    simp only [List.length_append] at hlength
    exact List.length_eq_zero_iff.mp (by omega)
  · intro hnone
    rw [hnone, List.nil_append]
    exact List.forall₂_same.mpr fun l _ => unchanged_refl l

end Reading

/-! ## The rendering -/

/-- A list splits in one way at the first of its lines that assigns the password. -/
theorem split_unique {before before' after after' : List Text} {line line' : Text}
    (h : before ++ line :: after = before' ++ line' :: after')
    (hline : activeKey line = some databasePassword) (hline' : activeKey line' = some databasePassword)
    (hbefore : ∀ l ∈ before, activeKey l ≠ some databasePassword)
    (hbefore' : ∀ l ∈ before', activeKey l ≠ some databasePassword) :
    before = before' ∧ line = line' ∧ after = after' := by
  induction before generalizing before' with
  | nil =>
    cases before' with
    | nil => simpa using h
    | cons l rest =>
      rw [List.nil_append, List.cons_append, List.cons.injEq] at h
      exact absurd (h.1 ▸ hline) (hbefore' l (by simp))
  | cons l rest ih =>
    cases before' with
    | nil =>
      rw [List.nil_append, List.cons_append, List.cons.injEq] at h
      exact absurd (h.1 ▸ hline') (hbefore l (by simp))
    | cons l' rest' =>
      simp only [List.cons_append, List.cons.injEq, List.mem_cons, forall_eq_or_imp] at h hbefore hbefore'
      obtain ⟨rfl, hlines⟩ := ih h.2 hbefore.2 hbefore'.2
      exact ⟨by rw [h.1], hlines⟩

/-- A file with one password line, and what the encoder makes of the new password. -/
structure OnePasswordLine (original : ByteArray) (password old encoded : Text)
    (before : List Text) (line : Text) (after : List Text) : Prop where
  decodes : decode original = some old
  encodes : encodeEnvValue password = .ok encoded
  lines : feedLines old = before ++ line :: after
  active : activeKey line = some databasePassword
  others : ∀ other ∈ before ++ after, activeKey other ≠ some databasePassword

theorem activeKey_nil : activeKey [] = none := by decide

section Rendering

variable {original rendered : ByteArray} {password old encoded line : Text}
  {before after : List Text}

theorem OnePasswordLine.ne_nil
    (h : OnePasswordLine original password old encoded before line after) : line ≠ [] := by
  rintro rfl
  exact absurd h.active (by simp [activeKey_nil])

theorem OnePasswordLine.lf_not_mem
    (h : OnePasswordLine original password old encoded before line after) {other : Text}
    (hother : other ∈ before ++ line :: after) : lf ∉ other :=
  lf_not_mem_feedLines (h.lines ▸ hother)

theorem OnePasswordLine.assigning_eq
    (h : OnePasswordLine original password old encoded before line after) :
    assigning databasePassword (feedLines old) = [line] := by
  have hnone (part : List Text) (hpart : ∀ l ∈ part, l ∈ before ++ after) :
      part.filter (fun l => activeKey l = some databasePassword) = [] := by
    rw [List.filter_eq_nil_iff]
    exact fun l hl hactive => h.others l (hpart l hl) (of_decide_eq_true hactive)
  rw [h.lines, assigning, List.filter_append, List.filter_cons, if_pos (decide_eq_true h.active),
    hnone before (by simp +contextual), hnone after (by simp +contextual), List.nil_append]

/-- The lines that are written. -/
theorem OnePasswordLine.render
    (h : OnePasswordLine original password old encoded before line after) :
    renderDatabasePasswordUpdate original password =
      orRaise (encode (keepFinalNewline old
        (joinLines (before ++ assign databasePassword encoded :: after)))) .unicodeEncode := by
  have hlength := length_activeLineIndices (scanned_parseLines old) databasePassword
  rw [map_fst_parseLines, h.assigning_eq, List.length_singleton] at hlength
  obtain ⟨idx, hidx⟩ := List.length_eq_one_iff.mp hlength
  obtain ⟨first, pair, rest, hsplit, hposition, hkey, hfirst⟩ := exists_of_activeLineIndices hidx
  have hset : (parseLines old).set idx
      (assign databasePassword encoded, some databasePassword) =
        first ++ (assign databasePassword encoded, some databasePassword) :: rest := by
    rw [hsplit, ← hposition]
    simp
  have hlines : before = first.map Prod.fst ∧ after = rest.map Prod.fst := by
    have hjoined := congrArg (List.map Prod.fst) hsplit
    have hactive : activeKey pair.1 = some databasePassword := by
      rw [← scanned_parseLines old pair (by simp [hsplit]), hkey]
    have hahead : ∀ l ∈ first.map Prod.fst, activeKey l ≠ some databasePassword := by
      intro l hl
      obtain ⟨p, hp, rfl⟩ := List.mem_map.mp hl
      rw [← scanned_parseLines old p (by simp [hsplit, hp])]
      exact hfirst p hp
    rw [map_fst_parseLines, h.lines, List.map_append, List.map_cons] at hjoined
    obtain ⟨rfl, -, rfl⟩ := split_unique hjoined h.active hactive
      (fun l hl => h.others l (by simp [hl])) hahead
    exact ⟨rfl, rfl⟩
  obtain ⟨rfl, rfl⟩ := hlines
  simp only [renderDatabasePasswordUpdate, h.decodes, h.encodes, orRaise, Option.elim_some,
    Except.mapError, bind, Except.bind, hidx, hset, renderLines_eq]
  simp

theorem exists_onePasswordLine (h : renderDatabasePasswordUpdate original password = .ok rendered) :
    ∃ old encoded before line after,
      OnePasswordLine original password old encoded before line after := by
  simp only [renderDatabasePasswordUpdate, bind_eq_ok, orRaise_eq_ok, mapError_eq_ok] at h
  obtain ⟨old, hold, encoded, hencoded, h⟩ := h
  split at h
  · cases h
  · cases h
  · rename_i idx hidx
    obtain ⟨first, pair, rest, hsplit, -, hkey, hfirst⟩ := exists_of_activeLineIndices hidx
    have hscan := scanned_parseLines old
    have hlines : feedLines old = first.map Prod.fst ++ pair.1 :: rest.map Prod.fst := by
      rw [← map_fst_parseLines, hsplit]
      simp
    have hactive : activeKey pair.1 = some databasePassword := by
      rw [← hscan pair (by simp [hsplit]), hkey]
    have honce := length_activeLineIndices hscan databasePassword
    rw [hidx, map_fst_parseLines, hlines, assigning, List.filter_append, List.filter_cons,
      if_pos (decide_eq_true hactive)] at honce
    simp only [List.length_append, List.length_cons, List.length_nil] at honce
    have hnone (part : List Text)
        (hpart : (part.filter fun l => activeKey l = some databasePassword).length = 0) :
        ∀ l ∈ part, activeKey l ≠ some databasePassword := by
      intro l hl hactive
      rw [List.length_eq_zero_iff, List.filter_eq_nil_iff] at hpart
      exact hpart l hl (decide_eq_true hactive)
    refine ⟨old, encoded, first.map Prod.fst, pair.1, rest.map Prod.fst, hold, hencoded, hlines,
      hactive, fun l hl => ?_⟩
    rcases List.mem_append.mp hl with hmem | hmem
    · exact hnone _ (by omega) l hmem
    · exact hnone _ (by omega) l hmem

/-- The written text has the written lines, and renders to itself. -/
theorem keepFinalNewline_joinLines (old : Text) {lines : List Text} (hlf : ∀ l ∈ lines, lf ∉ l)
    (hne : lines ≠ []) (hlast : old ≠ [] ∧ old.getLast? ≠ some lf → lines.getLast hne ≠ []) :
    feedLines (keepFinalNewline old (joinLines lines)) = lines ∧
      keepFinalNewline (keepFinalNewline old (joinLines lines)) (joinLines lines) =
        keepFinalNewline old (joinLines lines) := by
  have hsplit : lines = lines.dropLast ++ [lines.getLast hne] :=
    (List.dropLast_append_getLast hne).symm
  have hjoin : joinLines lines = joinLines lines.dropLast ++ lines.getLast hne ++ [lf] := by
    conv_lhs => rw [hsplit]
    simp
  by_cases hold : old ≠ [] ∧ old.getLast? ≠ some lf
  · have hlastne := hlast hold
    have hlastLf : lf ∉ lines.getLast hne := hlf _ (List.getLast_mem hne)
    have hdrop : (joinLines lines).dropLast = joinLines lines.dropLast ++ lines.getLast hne := by
      rw [hjoin, List.dropLast_concat]
    have hend : (joinLines lines.dropLast ++ lines.getLast hne).getLast? ≠ some lf := by
      rw [List.getLast?_append_of_ne_nil _ hlastne]
      exact fun hend => hlastLf (List.mem_of_getLast? hend)
    have hkeep : keepFinalNewline old (joinLines lines) =
        joinLines lines.dropLast ++ lines.getLast hne := by
      rw [keepFinalNewline, if_pos hold, hdrop]
    rw [hkeep]
    constructor
    · rw [feedLines_append_last (fun l hl => hlf l (List.dropLast_subset _ hl)) hlastLf hlastne,
        ← hsplit]
    · rw [keepFinalNewline, if_pos ⟨by simp [hlastne], hend⟩, hdrop]
  · have hkeep : keepFinalNewline old (joinLines lines) = joinLines lines := by
      rw [keepFinalNewline, if_neg hold]
    have hend : ¬(joinLines lines ≠ [] ∧ (joinLines lines).getLast? ≠ some lf) := by
      rw [hjoin]
      simp
    rw [hkeep]
    exact ⟨feedLines_joinLines hlf, by rw [keepFinalNewline, if_neg hend]⟩

theorem OnePasswordLine.getLast_ne_nil
    (h : OnePasswordLine original password old encoded before line after)
    (hold : old ≠ [] ∧ old.getLast? ≠ some lf)
    (hne : before ++ assign databasePassword encoded :: after ≠ []) :
    (before ++ assign databasePassword encoded :: after).getLast hne ≠ [] := by
  obtain ⟨lines, last, hlast, hlastne, -⟩ := exists_last_feedLines hold.1 hold.2
  rw [h.lines] at hlast
  rcases List.eq_nil_or_concat after with rfl | ⟨init, final, rfl⟩
  · simp [assign]
  · rw [List.concat_eq_append] at hlast
    have hsplit : (before ++ line :: init) ++ [final] = lines ++ [last] := by
      simpa using hlast
    obtain ⟨-, hfinal⟩ := List.append_inj' hsplit rfl
    obtain rfl : final = last := by simpa using hfinal
    simpa using hlastne

/-- Rendering the same password again gives the same bytes. -/
theorem renderDatabasePasswordUpdate_again
    (h : renderDatabasePasswordUpdate original password = .ok rendered) :
    renderDatabasePasswordUpdate rendered password = .ok rendered := by
  obtain ⟨old, encoded, before, line, after, hline⟩ := exists_onePasswordLine h
  have hrender := hline.render
  rw [h, eq_comm, orRaise_eq_ok] at hrender
  obtain ⟨hlf, -⟩ := lf_cr_not_mem_assign plainKey_databasePassword hline.encodes
  have hne : before ++ assign databasePassword encoded :: after ≠ [] := by simp
  have hlines : ∀ l ∈ before ++ assign databasePassword encoded :: after, lf ∉ l := by
    intro l hl
    simp only [List.mem_append, List.mem_cons] at hl
    rcases hl with hmem | rfl | hmem
    · exact hline.lf_not_mem (by simp [hmem])
    · exact hlf
    · exact hline.lf_not_mem (by simp [hmem])
  obtain ⟨hfeed, hkeep⟩ := keepFinalNewline_joinLines old hlines hne fun hold =>
    hline.getLast_ne_nil hold hne
  have hagain : OnePasswordLine rendered password _ encoded before
      (assign databasePassword encoded) after :=
    ⟨decode_of_encode hrender, hline.encodes, hfeed,
      activeKey_assign plainKey_databasePassword hline.encodes, hline.others⟩
  rw [hagain.render, hkeep, hrender]
  rfl

/-- The one value the rendering is given. -/
def passwordValues (password : Text) : Dict Text Text :=
  ⟨[(databasePassword, password)], by simp⟩

theorem OnePasswordLine.readAsOneLine_iff
    (h : OnePasswordLine original password old encoded before line after) :
    ReadAsOneLine password old ↔
      (∀ piece ∈ universalLines line, activeKey piece.text = some databasePassword) ∧
        ∀ value, (repositoryData (joinLines after)).get? databasePassword = some value →
          value = password := by
  constructor
  · exact fun hread => hread before line after h.lines h.active
  · intro hread before' line' after' hlines hactive
    have hbefore' : ∀ l ∈ before', activeKey l ≠ some databasePassword := by
      intro l hl hkey
      have honce := congrArg List.length h.assigning_eq
      have hfirst : l ∈ before'.filter fun l => activeKey l = some databasePassword := by
        simp [hl, hkey]
      have hpos := List.length_pos_of_mem hfirst
      rw [hlines, assigning, List.filter_append, List.filter_cons, if_pos (decide_eq_true hactive)]
        at honce
      simp only [List.length_append, List.length_cons, List.length_nil] at honce
      omega
    obtain ⟨rfl, rfl, rfl⟩ := split_unique (h.lines.symm.trans hlines) h.active hactive
      (fun l hl => h.others l (by simp [hl])) hbefore'
    exact hread

/-- The rendering keeps what it promises exactly when the scanner's line is one line. -/
theorem OnePasswordLine.preserves_iff
    (h : OnePasswordLine original password old encoded before line after) :
    Preserves (passwordValues password) old (keepFinalNewline old
        (joinLines (before ++ assign databasePassword encoded :: after))) ↔
      ReadAsOneLine password old := by
  obtain ⟨rest, haround⟩ := exists_around h.lines (assign databasePassword encoded)
  have hline : lf ∉ line := h.lf_not_mem (by simp)
  have hforall := haround.forall₂_unchanged h.encodes h.ne_nil hline
  rw [h.readAsOneLine_iff]
  constructor
  · intro hpreserves
    refine ⟨hforall.mp hpreserves.lines, fun value hvalue => ?_⟩
    obtain ⟨ahead, hnew, -⟩ := haround.get?_new h.encodes databasePassword
    have hread := hpreserves.named databasePassword password
      (by simp [passwordValues, Dict.get?, Dict.find])
    rw [hnew, hvalue, Option.some_or] at hread
    exact Option.some.inj hread
  · rintro ⟨hpieces, hhidden⟩
    refine ⟨fun key raw hget => ?_, fun key hkey => ?_, hforall.mpr hpieces⟩
    · obtain ⟨rfl, rfl⟩ : key = databasePassword ∧ raw = password := by
        have hmem := Dict.get?_eq_some_iff.mp hget
        simpa [passwordValues] using hmem
      obtain ⟨ahead, hnew, -⟩ := haround.get?_new h.encodes databasePassword
      rw [hnew, if_pos rfl]
      cases hvalue : (repositoryData (joinLines after)).get? databasePassword with
      | none => rfl
      | some value => rw [hhidden value hvalue, Option.some_or]
    · have hne : key ≠ databasePassword := by
        rintro rfl
        exact hkey (by simp [passwordValues, Dict.keys])
      obtain ⟨ahead, hnew, hold⟩ := haround.get?_new h.encodes key
      have hgone : (repositoryData line).get? key = none := by
        refine get?_dataOf_eq_none fun l hl hactive => ?_
        obtain ⟨piece, hpiece, rfl⟩ := List.mem_map.mp hl
        rw [hpieces piece hpiece, Option.some.injEq] at hactive
        exact hne hactive.symm
      rw [hnew, hold h.ne_nil hline, if_neg hne, hgone, Option.none_or]

end Rendering

/-! ## The environment file -/

/-- Made again, whatever its surroundings, an update changes nothing and reports nothing; in the
same surroundings it succeeds. -/
def IsRepeatable (s : Surroundings) (after : FileSystem) (values : Dict Text Text) : Prop :=
  updateManagedValues s after values = (.ok [], after) ∧
    ∀ s', (updateManagedValues s' after values).2 = after ∧
      ∀ changed, (updateManagedValues s' after values).1 = .ok changed → changed = []

/-- A successful update of managed values is repeatable, and keeps what it promises exactly when
no other line ends with a carriage return or there is nothing to write. -/
theorem updateManagedValues_preserves_iff {s : Surroundings} {fs after : FileSystem}
    {values : Dict Text Text} {changed : List Text}
    (h : updateManagedValues s fs values = (.ok changed, after)) :
    ∃ old new, fs.env.contents = some old ∧ after.env.contents = some new ∧
      IsRepeatable s after values ∧
      (Preserves values old new ↔ PlainEndings values.keys old ∨ AlreadySet values old) := by
  obtain ⟨encoded, prepared, hfrom, rfl, ⟨hnothing, rfl⟩ | ⟨hsome, data, mode, henv, hdata⟩⟩ :=
    updateManagedValues_eq_ok h
  · obtain ⟨-, -, -, old, hold, -⟩ := readOriginal_eq_ok hfrom.reads
    have hset := ((hfrom.changed_iff hold).2).mp hnothing
    refine ⟨old, old, hold, hold, ⟨hnothing ▸ h, fun s' =>
      updateManagedValues_of_alreadySet s' hold hset⟩, iff_of_true ?_ (.inr hset)⟩
    have hlines : (universalLines old).map Line.text = prepared.pairs.map Prod.fst := by
      have hpairs : prepared.pairs =
          (writeAssignments (parseLines prepared.originalText) encoded).1 := by
        rw [← hfrom.written]
      have hall := hfrom.changed_eq_nil_iff.mp hnothing
      have hupdatable := hfrom.updatable
      rw [← map_fst_parseLines] at hall hupdatable
      rw [hpairs, writeAssignments_of_isSet (scanned_parseLines _) hupdatable hall,
        map_fst_parseLines, (hfrom.changed_iff hold).1, feedLines_translate]
    obtain ⟨hnamed, hothers⟩ := hfrom.reads_new hold hlines
    exact ⟨hnamed, hothers, List.forall₂_same.mpr fun line _ => unchanged_refl line⟩
  · obtain ⟨-, -, -, old, hold, -⟩ := readOriginal_eq_ok hfrom.reads
    have hnew : after.env.contents = some (renderLines prepared.pairs) := by
      rw [henv]
      exact hdata
    refine ⟨old, _, hold, hnew, ⟨hfrom.again henv hdata, fun s' =>
      updateManagedValues_of_alreadySet s' hnew hfrom.alreadySet_render⟩, ?_⟩
    have hlines : (universalLines (renderLines prepared.pairs)).map Line.text =
        prepared.pairs.map Prod.fst := by
      simp [hfrom.universalLines_render, Function.comp_def]
    obtain ⟨hnamed, hothers⟩ := hfrom.reads_new hold hlines
    have hforall := forall₂_unchanged_map (otherLines values.keys old)
    rw [← hfrom.otherLines_render hold] at hforall
    constructor
    · exact fun hpreserves => .inl (hforall.mp hpreserves.lines)
    · rintro (hplain | hset)
      · exact ⟨hnamed, hothers, hforall.mpr hplain⟩
      · exact absurd (((hfrom.changed_iff hold).2).mpr hset) hsome

/-- Both updates of the environment file keep what they promise exactly when carriage returns do
not stand in the way, both can be repeated, and a call that raises before the final rename leaves
the file alone. -/
theorem environment_update_exact (s : Surroundings) (fs : FileSystem) (values : Dict Text Text)
    (original : ByteArray) (password : Text) :
    (∀ after changed, updateManagedValues s fs values = (.ok changed, after) →
      ∃ old new, fs.env.contents = some old ∧ after.env.contents = some new ∧
        ((Preserves values old new ∧ IsRepeatable s after values) ↔
          PlainEndings values.keys old ∨ AlreadySet values old)) ∧
    (∀ e, (updateManagedValues s fs values).1 = .error e →
      e ≠ .interruptedAfterRename → (updateManagedValues s fs values).2.env = fs.env) ∧
    (∀ rendered, renderDatabasePasswordUpdate original password = .ok rendered →
      ∃ old new, decode original = some old ∧ decode rendered = some new ∧
        ((Preserves (passwordValues password) old new ∧
          renderDatabasePasswordUpdate rendered password = .ok rendered) ↔
            ReadAsOneLine password old)) := by
  refine ⟨fun after changed h => ?_, fun e h he => updateManagedValues_raises s fs values h he,
    fun rendered h => ?_⟩
  · obtain ⟨old, new, hold, hnew, hrepeat, hiff⟩ := updateManagedValues_preserves_iff h
    exact ⟨old, new, hold, hnew, (and_iff_left hrepeat).trans hiff⟩
  · obtain ⟨old, encoded, before, line, after, hline⟩ := exists_onePasswordLine h
    have hrender := hline.render
    rw [h, eq_comm, orRaise_eq_ok] at hrender
    exact ⟨old, _, hline.decodes, decode_of_encode hrender,
      (and_iff_left (renderDatabasePasswordUpdate_again h)).trans hline.preserves_iff⟩

/-- Surroundings in which nothing fails and every value is accepted. -/
def calm : Surroundings where
  path := "/srv/isadoraair/.env"
  validate := fun _ _ => none
  lockFault := none
  rotationPending := some false
  readFault := none
  backupFault := none
  writeFault := none

def hostValues (host : String) : Dict Text Text :=
  ⟨[(codePoints "EMAIL_HOST", codePoints host)], by simp⟩

/-- The comment keeps its text but not its line end; the line behind the password is lost. -/
theorem carriage_returns_are_lost :
    (updateManagedValues calm ⟨.file "# mail\r\nEMAIL_HOST=a\r\n".toUTF8 0o600, .absent⟩
        (hostValues "b") =
      (.ok [codePoints "EMAIL_HOST"],
        ⟨.file "# mail\nEMAIL_HOST=b\n".toUTF8 0o600,
          .file "# mail\nEMAIL_HOST=a\n".toUTF8 0o600⟩) ∧
      ¬Preserves (hostValues "b") (codePoints "# mail\r\nEMAIL_HOST=a\r\n")
        (codePoints "# mail\nEMAIL_HOST=b\n")) ∧
    (renderDatabasePasswordUpdate "DB_PASSWORD=x\rDB_USER=air\n".toUTF8 (codePoints "y") =
      .ok "DB_PASSWORD=y\n".toUTF8 ∧
      ¬Preserves (passwordValues (codePoints "y")) (codePoints "DB_PASSWORD=x\rDB_USER=air\n")
        (codePoints "DB_PASSWORD=y\n")) := by
  refine ⟨⟨by decide +kernel, fun h => ?_⟩, by decide +kernel, fun h => ?_⟩
  · have hold : otherLines (hostValues "b").keys (codePoints "# mail\r\nEMAIL_HOST=a\r\n") =
        [⟨codePoints "# mail", .crlf⟩] := by decide +kernel
    have hnew : otherLines (hostValues "b").keys (codePoints "# mail\nEMAIL_HOST=b\n") =
        [⟨codePoints "# mail", .lf⟩] := by decide +kernel
    have hlines := h.lines
    rw [hold, hnew, List.forall₂_cons] at hlines
    simp [Unchanged] at hlines
  · have hlines := h.lines.length_eq
    revert hlines
    decide +kernel

theorem environment_update_exact_sample :
    (∃ old new, Entry.contents (.file "EMAIL_HOST=a\n".toUTF8 0o600) = some old ∧
        Entry.contents (.file "EMAIL_HOST=b\n".toUTF8 0o600) = some new ∧
        ((Preserves (hostValues "b") old new ∧
            IsRepeatable calm
              ⟨.file "EMAIL_HOST=b\n".toUTF8 0o600, .file "EMAIL_HOST=a\n".toUTF8 0o600⟩
              (hostValues "b")) ↔
          PlainEndings (hostValues "b").keys old ∨ AlreadySet (hostValues "b") old)) ∧
    (updateManagedValues calm ⟨.link 0o777, .absent⟩ (hostValues "b")).2.env = .link 0o777 ∧
    (∃ old new, decode "DB_PASSWORD=x\n".toUTF8 = some old ∧
      decode "DB_PASSWORD=y\n".toUTF8 = some new ∧
        ((Preserves (passwordValues (codePoints "y")) old new ∧
            renderDatabasePasswordUpdate "DB_PASSWORD=y\n".toUTF8 (codePoints "y") =
              .ok "DB_PASSWORD=y\n".toUTF8) ↔
          ReadAsOneLine (codePoints "y") old)) :=
  ⟨(environment_update_exact calm ⟨.file "EMAIL_HOST=a\n".toUTF8 0o600, .absent⟩ (hostValues "b")
      "".toUTF8 []).1 ⟨.file "EMAIL_HOST=b\n".toUTF8 0o600, .file "EMAIL_HOST=a\n".toUTF8 0o600⟩
      [codePoints "EMAIL_HOST"] (by decide +kernel),
    (environment_update_exact calm ⟨.link 0o777, .absent⟩ (hostValues "b") "".toUTF8 []).2.1
      (.config (.envWrite
        "/srv/isadoraair/.env is a symlink; refusing to write through it for safety"))
      (by decide +kernel) (by decide),
    (environment_update_exact calm ⟨.absent, .absent⟩ (hostValues "b")
      "DB_PASSWORD=x\n".toUTF8 (codePoints "y")).2.2
      "DB_PASSWORD=y\n".toUTF8 (by decide +kernel)⟩

end IsadoraAir.EnvConfig
