import IsadoraAir.EnvConfig.Assignments
import Mathlib.Data.List.Count

/-!
# Rewriting the lines of the environment file

An update replaces the one active line of a key, or appends one. Every other
line stays, in its place; afterwards each key named by the update has exactly
one active line, and that line says what was asked.
-/

namespace IsadoraAir.EnvConfig

open Text

/-- A line of the file with the key it assigns, if any. -/
abbrev ScannedLine := Text × Option Text

/-- `_parse_lines(text)` -/
def parseLines (text : Text) : List ScannedLine :=
  (feedLines text).map fun line => (line, activeKey line)

/-- `_render_lines(pairs)` -/
def renderLines (pairs : List ScannedLine) : Text :=
  if pairs = [] then [] else [lf].intercalate (pairs.map Prod.fst) ++ [lf]

/-- `_active_line_indices(pairs, key)` -/
def activeLineIndices (pairs : List ScannedLine) (key : Text) : List Nat :=
  pairs.findIdxs fun pair => pair.2 = some key

/-- One turn of the loop over the encoded values, with the keys changed so far. -/
def writeAssignment (state : List ScannedLine × List Text) (item : Text × Text) :
    List ScannedLine × List Text :=
  let (pairs, changedKeys) := state
  let newAssignment := assign item.1 item.2
  match activeLineIndices pairs item.1 with
  | [] => (pairs ++ [(newAssignment, some item.1)], changedKeys ++ [item.1])
  | idx :: _ =>
      if (pairs[idx]?.map fun pair => strip pair.1) = some newAssignment then state
      else (pairs.set idx (newAssignment, some item.1), changedKeys ++ [item.1])

/-- The loop over the encoded values. -/
def writeAssignments (pairs : List ScannedLine) (encoded : List (Text × Text)) :
    List ScannedLine × List Text :=
  encoded.foldl writeAssignment (pairs, [])

theorem renderLines_eq (pairs : List ScannedLine) :
    renderLines pairs = joinLines (pairs.map Prod.fst) := by
  by_cases h : pairs = []
  · simp [renderLines, h]
  · rw [renderLines, if_neg h, intercalate_append_lf (by simpa using h)]

/-- Every pair carries the key of its line. -/
def Scanned (pairs : List ScannedLine) : Prop := ∀ pair ∈ pairs, pair.2 = activeKey pair.1

theorem scanned_parseLines (text : Text) : Scanned (parseLines text) := by
  intro pair hpair
  obtain ⟨line, -, rfl⟩ := List.mem_map.mp hpair
  rfl

theorem map_fst_parseLines (text : Text) : (parseLines text).map Prod.fst = feedLines text := by
  simp [parseLines, Function.comp_def]

/-- The lines that assign a key. -/
def assigning (key : Text) (lines : List Text) : List Text :=
  lines.filter fun line => activeKey line = some key

theorem mem_assigning {key line : Text} {lines : List Text} :
    line ∈ assigning key lines ↔ line ∈ lines ∧ activeKey line = some key := by
  simp [assigning]

theorem length_activeLineIndices {pairs : List ScannedLine} (h : Scanned pairs) (key : Text) :
    (activeLineIndices pairs key).length = (assigning key (pairs.map Prod.fst)).length := by
  rw [activeLineIndices, List.length_findIdxs, assigning, ← List.countP_eq_length_filter,
    List.countP_map]
  refine List.countP_congr fun pair hpair => ?_
  simp [h pair hpair]

/-- The first active line of a key splits the lines; with no other one, it is the only one. -/
theorem exists_of_activeLineIndices {pairs : List ScannedLine} {key : Text} {idx : Nat}
    {more : List Nat} (h : activeLineIndices pairs key = idx :: more) :
    ∃ before pair after, pairs = before ++ pair :: after ∧ before.length = idx ∧
      pair.2 = some key ∧ ∀ pair ∈ before, pair.2 ≠ some key := by
  have hpos : 0 < (activeLineIndices pairs key).length := by simp [h]
  have hfind : idx = pairs.findIdx fun pair => pair.2 = some key := by
    rw [activeLineIndices] at hpos h
    rw [← List.getElem_zero_findIdxs_eq_findIdx hpos]
    simp [h]
  have hlt : idx < pairs.length := by
    rw [hfind, List.findIdx_lt_length]
    have hne : activeLineIndices pairs key ≠ [] := by simp [h]
    rw [activeLineIndices, ne_eq, List.findIdxs_eq_nil_iff] at hne
    simpa using hne
  have hbefore : ∀ i (hi : i < idx) (hlen : i < pairs.length), pairs[i].2 ≠ some key := by
    intro i hi hlen
    rw [hfind] at hi
    simpa using List.not_of_lt_findIdx hi
  have hpair : pairs[idx].2 = some key := by
    subst hfind
    simpa using List.findIdx_getElem (w := hlt)
  refine ⟨pairs.take idx, pairs[idx], pairs.drop (idx + 1), ?_, by simp [hlt.le], hpair, ?_⟩
  · rw [List.getElem_cons_drop, List.take_append_drop]
  · intro pair hmem
    obtain ⟨i, hi, rfl⟩ := List.mem_iff_getElem.mp hmem
    rw [List.length_take] at hi
    simpa using hbefore i (by omega) (by omega)

theorem activeLineIndices_eq_nil {pairs : List ScannedLine} {key : Text} :
    activeLineIndices pairs key = [] ↔ ∀ pair ∈ pairs, pair.2 ≠ some key := by
  simp [activeLineIndices, List.findIdxs_eq_nil_iff]

/-! ## One assignment -/

/-- The file already says so: an active line of the key is the new assignment. -/
def IsSet (lines : List Text) (item : Text × Text) : Prop :=
  ∃ line ∈ assigning item.1 lines, strip line = assign item.1 item.2

instance (lines : List Text) (item : Text × Text) : Decidable (IsSet lines item) :=
  inferInstanceAs (Decidable (∃ line ∈ assigning item.1 lines, strip line = assign item.1 item.2))

/-- An item of an update: a key and what the encoder made of its new value. -/
structure Encoded (item : Text × Text) : Prop where
  key : PlainKey item.1
  value : ∃ raw, encodeEnvValue raw = .ok item.2

section Step

variable {pairs : List ScannedLine} (changed : List Text) {item : Text × Text}

/-- At most one line assigns the key. -/
def AtMostOnce (key : Text) (lines : List Text) : Prop := (assigning key lines).length ≤ 1

theorem activeKey_item (h : Encoded item) : activeKey (assign item.1 item.2) = some item.1 := by
  obtain ⟨raw, hraw⟩ := h.value
  exact activeKey_assign h.key hraw

/-- What one turn does: nothing, a line appended, or the one line of the key replaced. -/
theorem writeAssignment_cases (hscan : Scanned pairs)
    (honce : AtMostOnce item.1 (pairs.map Prod.fst)) :
    (IsSet (pairs.map Prod.fst) item ∧
      writeAssignment (pairs, changed) item = (pairs, changed)) ∨
    (¬IsSet (pairs.map Prod.fst) item ∧ ∃ before old after,
      pairs = before ++ old ++ after ∧
      (∀ pair ∈ before ++ after, activeKey pair.1 ≠ some item.1) ∧
      (∀ pair ∈ old, activeKey pair.1 = some item.1) ∧
      writeAssignment (pairs, changed) item =
        (before ++ (assign item.1 item.2, some item.1) :: after, changed ++ [item.1])) := by
  cases hidx : activeLineIndices pairs item.1 with
  | nil =>
    have hnone := activeLineIndices_eq_nil.mp hidx
    have hplain : ∀ pair ∈ pairs, activeKey pair.1 ≠ some item.1 := by
      intro pair hpair
      rw [← hscan pair hpair]
      exact hnone pair hpair
    refine .inr ⟨?_, pairs, [], [], by simp, by simpa using hplain, by simp, ?_⟩
    · rintro ⟨line, hline, -⟩
      obtain ⟨hmem, hkey⟩ := mem_assigning.mp hline
      obtain ⟨pair, hpair, rfl⟩ := List.mem_map.mp hmem
      exact hplain pair hpair hkey
    · simp [writeAssignment, hidx]
  | cons idx more =>
    obtain ⟨before, pair, after, rfl, rfl, hkey, hbefore⟩ := exists_of_activeLineIndices hidx
    have hscan' := hscan
    simp only [Scanned, List.mem_append, List.mem_cons, or_imp, forall_and, forall_eq] at hscan'
    obtain ⟨hscanBefore, hscanPair, hscanAfter⟩ := hscan'
    have hpair : activeKey pair.1 = some item.1 := hscanPair ▸ hkey
    have hlines : assigning item.1 ((before ++ pair :: after).map Prod.fst) =
        assigning item.1 (before.map Prod.fst) ++ pair.1 :: assigning item.1 (after.map Prod.fst) := by
      simp [assigning, hpair]
    have hempty : assigning item.1 (before.map Prod.fst) = [] ∧
        assigning item.1 (after.map Prod.fst) = [] := by
      rw [AtMostOnce, hlines, List.length_append, List.length_cons] at honce
      constructor <;> apply List.length_eq_zero_iff.mp <;> omega
    have hothers : ∀ other ∈ before ++ after, activeKey other.1 ≠ some item.1 := by
      intro other hother hactive
      rcases List.mem_append.mp hother with hmem | hmem
      · have : other.1 ∈ assigning item.1 (before.map Prod.fst) :=
          mem_assigning.mpr ⟨List.mem_map_of_mem hmem, hactive⟩
        simp [hempty.1] at this
      · have : other.1 ∈ assigning item.1 (after.map Prod.fst) :=
          mem_assigning.mpr ⟨List.mem_map_of_mem hmem, hactive⟩
        simp [hempty.2] at this
    have hset : IsSet ((before ++ pair :: after).map Prod.fst) item ↔
        strip pair.1 = assign item.1 item.2 := by
      rw [IsSet, hlines, hempty.1, hempty.2]
      simp
    by_cases hsame : strip pair.1 = assign item.1 item.2
    · exact .inl ⟨hset.mpr hsame, by simp [writeAssignment, hidx, hsame]⟩
    · refine .inr ⟨fun h => hsame (hset.mp h), before, [pair], after, by simp, hothers,
        by simpa using hpair, ?_⟩
      simp [writeAssignment, hidx, hsame]

/-- One turn leaves every line alone that does not assign its key. -/
theorem filter_writeAssignment (hscan : Scanned pairs)
    (honce : AtMostOnce item.1 (pairs.map Prod.fst)) (hitem : Encoded item) {keep : Text → Bool}
    (hkeep : ∀ line, keep line = true → activeKey line ≠ some item.1) :
    ((writeAssignment (pairs, changed) item).1.map Prod.fst).filter keep =
      (pairs.map Prod.fst).filter keep := by
  rcases writeAssignment_cases changed hscan honce with ⟨-, heq⟩ |
    ⟨-, before, old, after, rfl, -, hold, heq⟩
  · rw [heq]
  · have hnew : keep (assign item.1 item.2) = false :=
      Bool.eq_false_iff.mpr fun h => hkeep _ h (activeKey_item hitem)
    have hgone : (old.map Prod.fst).filter keep = [] := by
      rw [List.filter_eq_nil_iff]
      intro line hline h
      obtain ⟨pair, hpair, rfl⟩ := List.mem_map.mp hline
      exact hkeep _ h (hold pair hpair)
    rw [heq]
    simp [hnew, hgone]

/-- After a turn one line assigns its key, and it is the new assignment. -/
theorem assigning_writeAssignment (hscan : Scanned pairs)
    (honce : AtMostOnce item.1 (pairs.map Prod.fst)) (hitem : Encoded item) :
    ∃ line, assigning item.1 ((writeAssignment (pairs, changed) item).1.map Prod.fst) = [line] ∧
      strip line = assign item.1 item.2 := by
  rcases writeAssignment_cases changed hscan honce with
    ⟨⟨line, hline, hstrip⟩, heq⟩ | ⟨-, before, old, after, rfl, hothers, -, heq⟩
  · rw [heq]
    obtain ⟨other, hother⟩ : ∃ other, assigning item.1 (pairs.map Prod.fst) = [other] := by
      refine List.length_eq_one_iff.mp ?_
      have hpos := List.length_pos_of_mem hline
      rw [AtMostOnce] at honce
      omega
    rw [hother, List.mem_singleton] at hline
    exact ⟨other, hother, hline ▸ hstrip⟩
  · obtain ⟨raw, hraw⟩ := hitem.value
    refine ⟨assign item.1 item.2, ?_, strip_assign hitem.key hraw⟩
    have hnone : ∀ part : List ScannedLine, (∀ pair ∈ part, activeKey pair.1 ≠ some item.1) →
        assigning item.1 (part.map Prod.fst) = [] := by
      intro part hpart
      rw [assigning, List.filter_eq_nil_iff]
      intro line hline h
      obtain ⟨pair, hpair, rfl⟩ := List.mem_map.mp hline
      exact hpart pair hpair (by simpa using h)
    have hbefore := hnone before fun pair hpair => hothers pair (by simp [hpair])
    have hafter := hnone after fun pair hpair => hothers pair (by simp [hpair])
    simp only [assigning] at hbefore hafter
    rw [heq]
    simp [assigning, hbefore, hafter, activeKey_item hitem]

theorem scanned_writeAssignment (hscan : Scanned pairs)
    (honce : AtMostOnce item.1 (pairs.map Prod.fst)) (hitem : Encoded item) :
    Scanned (writeAssignment (pairs, changed) item).1 := by
  rcases writeAssignment_cases changed hscan honce with ⟨-, heq⟩ |
    ⟨-, before, old, after, rfl, -, -, heq⟩
  · rwa [heq]
  · intro pair hpair
    rw [heq] at hpair
    simp only [List.mem_append, List.mem_cons] at hpair
    rcases hpair with hmem | rfl | hmem
    · exact hscan pair (by simp [hmem])
    · exact (activeKey_item hitem).symm
    · exact hscan pair (by simp [hmem])

end Step

/-! ## The whole loop -/

/-- What can be updated: encoded values of distinct keys, each assigned at most once before. -/
structure Updatable (lines : List Text) (encoded : List (Text × Text)) : Prop where
  items : ∀ item ∈ encoded, Encoded item
  distinct : (encoded.map Prod.fst).Nodup
  once : ∀ item ∈ encoded, AtMostOnce item.1 lines

/-- The lines after an update: the others as before, each key assigned on one line as asked. -/
structure Rewritten (encoded : List (Text × Text)) (lines lines' : List Text) : Prop where
  others : ∀ keep : Text → Bool,
    (∀ line, keep line = true → ∀ item ∈ encoded, activeKey line ≠ some item.1) →
      lines'.filter keep = lines.filter keep
  assigned : ∀ item ∈ encoded, ∃ line, assigning item.1 lines' = [line] ∧
    strip line = assign item.1 item.2

section Loop

variable {pairs : List ScannedLine} {item : Text × Text} {encoded : List (Text × Text)}

/-- After the first turn the rest of the items can still be written. -/
theorem Updatable.tail (changed : List Text) (hscan : Scanned pairs)
    (h : Updatable (pairs.map Prod.fst) (item :: encoded)) :
    Updatable ((writeAssignment (pairs, changed) item).1.map Prod.fst) encoded := by
  obtain ⟨hitem, hitems⟩ := List.forall_mem_cons.mp h.items
  obtain ⟨honce, honces⟩ := List.forall_mem_cons.mp h.once
  obtain ⟨hnew, hdistinct⟩ := List.nodup_cons.mp h.distinct
  refine ⟨hitems, hdistinct, fun other hother => ?_⟩
  have hne : item.1 ≠ other.1 := by
    intro heq
    exact hnew (heq ▸ List.mem_map_of_mem hother)
  rw [AtMostOnce, assigning, filter_writeAssignment changed hscan honce hitem]
  · exact honces other hother
  · intro line hline hactive
    rw [decide_eq_true_eq, hactive, Option.some.injEq] at hline
    exact hne hline

theorem rewritten_foldl (changed : List Text) (hscan : Scanned pairs)
    (h : Updatable (pairs.map Prod.fst) encoded) :
    Scanned (encoded.foldl writeAssignment (pairs, changed)).1 ∧
      Rewritten encoded (pairs.map Prod.fst)
        ((encoded.foldl writeAssignment (pairs, changed)).1.map Prod.fst) := by
  induction encoded generalizing pairs changed with
  | nil => exact ⟨hscan, fun keep _ => rfl, by simp⟩
  | cons item encoded ih =>
    have hitem := h.items item (by simp)
    have honce := h.once item (by simp)
    have htail := h.tail changed hscan
    have hscan' := scanned_writeAssignment changed hscan honce hitem
    obtain ⟨hscanned, hrest⟩ := ih (writeAssignment (pairs, changed) item).2 hscan' htail
    refine ⟨hscanned, fun keep hkeep => ?_, fun other hother => ?_⟩
    · rw [List.foldl_cons, hrest.others keep fun line hline other hother =>
        hkeep line hline other (by simp [hother])]
      exact filter_writeAssignment changed hscan honce hitem fun line hline => hkeep line hline item (by simp)
    · rcases List.mem_cons.mp hother with rfl | hmem
      · -- the later items leave the line of this key alone
        have hkept := hrest.others (fun line => activeKey line = some other.1) fun line hline item' hitem' => by
          intro hactive
          rw [decide_eq_true_eq, hactive, Option.some.injEq] at hline
          exact (List.nodup_cons.mp h.distinct).1 (hline ▸ List.mem_map_of_mem hitem')
        obtain ⟨line, hline, hstrip⟩ := assigning_writeAssignment changed hscan honce hitem
        exact ⟨line, hkept.trans hline, hstrip⟩
      · exact hrest.assigned other hmem

/-- The update of a scanned file, as its lines. -/
theorem rewritten_writeAssignments (hscan : Scanned pairs)
    (h : Updatable (pairs.map Prod.fst) encoded) :
    Rewritten encoded (pairs.map Prod.fst) ((writeAssignments pairs encoded).1.map Prod.fst) :=
  (rewritten_foldl [] hscan h).2

theorem changed_prefix_foldl (encoded : List (Text × Text)) (state : List ScannedLine × List Text) :
    state.2 <+: (encoded.foldl writeAssignment state).2 := by
  induction encoded generalizing state with
  | nil => exact List.prefix_rfl
  | cons item encoded ih =>
    refine List.IsPrefix.trans ?_ (ih _)
    simp only [writeAssignment]
    split
    · exact List.prefix_append _ _
    · split_ifs
      · exact List.prefix_rfl
      · exact List.prefix_append _ _

/-- Nothing is written exactly when the file says all of it already. -/
theorem changed_eq_nil_iff (hscan : Scanned pairs) (h : Updatable (pairs.map Prod.fst) encoded) :
    (writeAssignments pairs encoded).2 = [] ↔ ∀ item ∈ encoded, IsSet (pairs.map Prod.fst) item := by
  unfold writeAssignments
  induction encoded with
  | nil => simp
  | cons item encoded ih =>
    rw [List.foldl_cons, List.forall_mem_cons]
    rcases writeAssignment_cases [] hscan (h.once item (by simp)) with
      ⟨hset, heq⟩ | ⟨hset, before, old, after, -, -, -, heq⟩
    · have htail := h.tail [] hscan
      rw [heq] at htail ⊢
      simp [hset, ih htail]
    · obtain ⟨more, hmore⟩ := changed_prefix_foldl encoded (writeAssignment (pairs, []) item)
      rw [← hmore, heq]
      simp [hset]

theorem writeAssignments_of_isSet (hscan : Scanned pairs)
    (h : Updatable (pairs.map Prod.fst) encoded)
    (hset : ∀ item ∈ encoded, IsSet (pairs.map Prod.fst) item) :
    (writeAssignments pairs encoded).1 = pairs := by
  unfold writeAssignments
  induction encoded with
  | nil => rfl
  | cons item encoded ih =>
    have hitem := hset item (by simp)
    rcases writeAssignment_cases [] hscan (h.once item (by simp)) with
      ⟨-, heq⟩ | ⟨hnot, -⟩
    · have htail := h.tail [] hscan
      rw [List.foldl_cons, heq]
      rw [heq] at htail
      exact ih htail fun other hother => hset other (by simp [hother])
    · exact absurd hitem hnot

/-- Every line afterwards was there before or is one of the new assignments. -/
theorem mem_foldl_writeAssignment {state : List ScannedLine × List Text} {line : Text}
    (h : line ∈ (encoded.foldl writeAssignment state).1.map Prod.fst) :
    line ∈ state.1.map Prod.fst ∨ ∃ item ∈ encoded, line = assign item.1 item.2 := by
  induction encoded generalizing state with
  | nil => exact .inl h
  | cons item encoded ih =>
    rcases ih h with hmem | ⟨other, hother, heq⟩
    · obtain ⟨pair, hpair, rfl⟩ := List.mem_map.mp hmem
      have hcases : pair ∈ state.1 ∨ pair = (assign item.1 item.2, some item.1) := by
        simp only [writeAssignment] at hpair
        split at hpair
        · simpa using hpair
        · split_ifs at hpair
          · exact .inl hpair
          · exact List.mem_or_eq_of_mem_set hpair
      rcases hcases with hold | rfl
      · exact .inl (List.mem_map_of_mem hold)
      · exact .inr ⟨item, by simp, rfl⟩
    · exact .inr ⟨other, by simp [hother], heq⟩

end Loop

/-! ## What the reader finds afterwards -/

section Reading

variable {encoded : List (Text × Text)} {lines lines' : List Text} {key raw value : Text}

theorem Rewritten.get?_other (h : Rewritten encoded lines lines')
    (hkey : ∀ item ∈ encoded, item.1 ≠ key) :
    (dataOf lines').get? key = (dataOf lines).get? key := by
  have hsame := h.others (fun line => activeKey line = some key) fun line hline item hitem hactive => by
    rw [decide_eq_true_eq, hactive, Option.some.injEq] at hline
    exact hkey item hitem hline
  rw [← get?_dataOf_filter lines' fun line hline => decide_eq_true hline, hsame,
    get?_dataOf_filter _ fun line hline => decide_eq_true hline]

theorem Rewritten.get?_named (h : Rewritten encoded lines lines') (hkey : PlainKey key)
    (hraw : encodeEnvValue raw = .ok value) (hmem : (key, value) ∈ encoded) :
    (dataOf lines').get? key = some raw := by
  obtain ⟨line, hline, hstrip⟩ := h.assigned _ hmem
  have hstripped : strip line = strip (assign key value) := by
    rw [hstrip, strip_assign hkey hraw]
  have hactive : activeKey line = some key := by
    rw [activeKey_congr hstripped, activeKey_assign hkey hraw]
  rw [← get?_dataOf_filter lines' fun line hline => decide_eq_true hline]
  change (dataOf (assigning key lines')).get? key = some raw
  rw [hline, ← List.nil_append [line], get?_dataOf_concat, if_pos hactive,
    assignment_congr hstripped, assignment_assign hkey hraw, Option.map_some]

/-- Once written, the same update has nothing to do. -/
theorem Rewritten.isSet (h : Rewritten encoded lines lines') {item : Text × Text}
    (hmem : item ∈ encoded) : IsSet lines' item := by
  obtain ⟨line, hline, hstrip⟩ := h.assigned item hmem
  exact ⟨line, by simp [hline], hstrip⟩

theorem Rewritten.updatable (h : Rewritten encoded lines lines') (hupdatable : Updatable lines encoded) :
    Updatable lines' encoded := by
  refine ⟨hupdatable.items, hupdatable.distinct, fun item hitem => ?_⟩
  obtain ⟨line, hline, -⟩ := h.assigned item hitem
  simp [AtMostOnce, hline]

end Reading

end IsadoraAir.EnvConfig
