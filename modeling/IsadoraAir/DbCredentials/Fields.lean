import IsadoraAir.DbCredentials.Pgpass

/-!
# The fields of an entry

The scan that writes agrees with the scan that reads on a line with five fields:
the fourth separator of the one is where the fifth field of the other begins.
What is written there is read back, unless more text follows it.
-/

namespace IsadoraAir.DbCredentials

open Text EnvConfig

variable {behind rest text : Text} {count n : ℕ}

/-! ## The two scans of a line -/

section Scans

variable {escaped : Bool} {current line : Text}

theorem length_splitFields (index : ℕ) {fields : List Text}
    (h : splitFields escaped current line = some fields) :
    fields.length = (separators escaped index line).length + 1 := by
  fun_induction splitFields escaped current line generalizing index fields with
  | case1 => cases h
  | case2 current =>
    cases h
    rfl
  | case3 current char rest ih =>
    rw [separators]
    exact ih _ h
  | case4 current rest ih =>
    rw [separators, if_pos rfl]
    exact ih _ h
  | case5 current rest hne ih =>
    obtain ⟨others, hothers, rfl⟩ := Option.map_eq_some_iff.mp h
    rw [separators, if_neg hne, if_pos rfl, List.length_cons, List.length_cons,
      ih (index + 1) hothers]
  | case6 current char rest hback hcolon ih =>
    rw [separators, if_neg hback, if_neg hcolon]
    exact ih _ h

/-- The first characters of a line end with the separator of field `n`: the fields up to it do not
depend on what stands behind. -/
structure SplitsAt (escaped : Bool) (current line : Text) (n count : ℕ) : Prop where
  separator : ∃ init, line.take count = init ++ [colon]
  fields : ∃ front : List Text, front.length = n + 1 ∧ ∀ behind,
    splitFields escaped current (line.take count ++ behind) =
      (splitFields false [] behind).map (front ++ ·)

theorem splitFields_colon (current rest : Text) :
    splitFields false current (colon :: rest) = (splitFields false [] rest).map (current :: ·) := by
  rw [splitFields, if_neg (by decide), if_pos rfl]

theorem SplitsAt.zero (current rest : Text) : SplitsAt false current (colon :: rest) 0 1 := by
  refine ⟨⟨[], rfl⟩, [current], rfl, ?_⟩
  intro behind
  exact splitFields_colon current behind

theorem SplitsAt.succ (h : SplitsAt false [] rest n count) :
    SplitsAt false current (colon :: rest) (n + 1) (count + 1) := by
  obtain ⟨⟨init, hinit⟩, front, hlength, hfront⟩ := h
  refine ⟨⟨colon :: init, by rw [List.take_succ_cons, hinit]; rfl⟩, current :: front, ?_, ?_⟩
  · rw [List.length_cons, hlength]
  · intro behind
    rw [List.take_succ_cons, List.cons_append, splitFields_colon, hfront, Option.map_map]
    rfl

/-- A character that separates nothing. -/
theorem SplitsAt.cons {escaped' : Bool} {current' : Text} {char : CodePoint}
    (h : SplitsAt escaped' current' rest n count)
    (hchar : ∀ behind, splitFields escaped current (char :: behind) =
      splitFields escaped' current' behind) :
    SplitsAt escaped current (char :: rest) n (count + 1) := by
  obtain ⟨⟨init, hinit⟩, front, hlength, hfront⟩ := h
  refine ⟨⟨char :: init, by rw [List.take_succ_cons, hinit]; rfl⟩, front, hlength, ?_⟩
  intro behind
  rw [List.take_succ_cons, List.cons_append, hchar, hfront]

theorem splitsAt_of_separators (current : Text) {index position : ℕ}
    (h : (separators escaped index line)[n]? = some position) :
    ∃ count, position + 1 = index + count ∧ SplitsAt escaped current line n count := by
  induction line generalizing escaped current index n with
  | nil => simp [separators] at h
  | cons char rest ih =>
    cases escaped with
    | true =>
      rw [separators] at h
      obtain ⟨count, hcount, hsplits⟩ := ih (current ++ [char]) h
      exact ⟨count + 1, by omega, hsplits.cons fun behind => rfl⟩
    | false =>
      rw [separators] at h
      split_ifs at h with hback hcolon
      · obtain ⟨count, hcount, hsplits⟩ := ih current h
        refine ⟨count + 1, by omega, hsplits.cons fun behind => ?_⟩
        rw [splitFields, if_pos hback]
      · subst hcolon
        cases n with
        | zero =>
          rw [List.getElem?_cons_zero, Option.some.injEq] at h
          exact ⟨1, by omega, .zero current rest⟩
        | succ n =>
          rw [List.getElem?_cons_succ] at h
          obtain ⟨count, hcount, hsplits⟩ := ih [] h
          exact ⟨count + 1, by omega, hsplits.succ⟩
      · obtain ⟨count, hcount, hsplits⟩ := ih (current ++ [char]) h
        refine ⟨count + 1, by omega, hsplits.cons fun behind => ?_⟩
        rw [splitFields, if_neg hback, if_neg hcolon]

/-- Characters that mean nothing to the scan are read as they stand. -/
theorem splitFields_plain (h : ∀ c ∈ text, c ≠ backslash ∧ c ≠ colon) :
    splitFields false current (text ++ behind) = splitFields false (current ++ text) behind := by
  induction text generalizing current with
  | nil => rw [List.nil_append, List.append_nil]
  | cons c text ih =>
    rw [List.forall_mem_cons] at h
    rw [List.cons_append, splitFields, if_neg h.1.1, if_neg h.1.2, ih h.2, List.append_assoc]
    rfl

/-- A field grows with every character but the escapes, which cannot end it. -/
theorem length_le_of_splitFields {field : Text}
    (h : splitFields escaped current line = some [field]) :
    current.length + (if escaped = true ∨ line ≠ [] then 1 else 0) ≤ field.length := by
  fun_induction splitFields escaped current line generalizing field with
  | case1 => cases h
  | case2 current =>
    cases h
    simp
  | case3 current char rest ih =>
    have hgrown := ih h
    simp at hgrown ⊢
    omega
  | case4 current rest ih =>
    have hgrown := ih h
    simp at hgrown ⊢
    omega
  | case5 current rest hne ih =>
    obtain ⟨others, hothers, hcons⟩ := Option.map_eq_some_iff.mp h
    obtain ⟨rfl, rfl⟩ := List.cons.inj hcons
    have hlength := length_splitFields 0 hothers
    simp at hlength
  | case6 current char rest hback hcolon ih =>
    have hgrown := ih h
    simp at hgrown ⊢
    omega

end Scans

/-! ## The place of the password -/

/-- The line's body up to the password and from it on. -/
structure PasswordCut (body pre old : Text) (fields : PgpassFields) : Prop where
  body_eq : body = pre ++ old
  separator : ∃ init, pre = init ++ [colon]
  splits : ∀ behind, splitFields false [] (pre ++ behind) = (splitFields false [] behind).map
    ([fields.host, fields.port, fields.name, fields.user] ++ ·)

theorem splitPgpassFields_eq_ok {line : Text} {fields : PgpassFields} :
    splitPgpassFields line = .ok fields ↔ splitFields false [] line =
      some [fields.host, fields.port, fields.name, fields.user, fields.password] := by
  unfold splitPgpassFields
  constructor
  · intro h
    split at h
    · cases h
    · next hsplit =>
      cases h
      exact hsplit
    · cases h
  · intro h
    rw [h]

/-- The four separators that the writing scan asks for, and the cut that the last of them makes. -/
theorem exists_cut {body : Text} {fields : PgpassFields} (h : splitPgpassFields body = .ok fields) :
    ∃ first second third fourth, separators false 0 body = [first, second, third, fourth] ∧
      PasswordCut body (body.take (fourth + 1)) (body.drop (fourth + 1)) fields := by
  rw [splitPgpassFields_eq_ok] at h
  have hlength := length_splitFields 0 h
  obtain ⟨first, second, third, fourth, hseparators⟩ :
      ∃ first second third fourth, separators false 0 body = [first, second, third, fourth] :=
    List.length_eq_four.mp (by simpa using hlength.symm)
  have hfourth : (separators false 0 body)[3]? = some fourth := by
    rw [hseparators]
    rfl
  obtain ⟨count, hcount, hcolon, front, hfront, hsplits⟩ := splitsAt_of_separators [] hfourth
  rw [Nat.zero_add] at hcount
  subst hcount
  obtain ⟨host, port, name, user, rfl⟩ := List.length_eq_four.mp hfront
  have hbody := hsplits (body.drop (fourth + 1))
  rw [List.take_append_drop, h] at hbody
  obtain ⟨others, -, hothers⟩ := Option.map_eq_some_iff.mp hbody.symm
  simp only [List.cons_append, List.nil_append, List.cons.injEq] at hothers
  obtain ⟨rfl, rfl, rfl, rfl, -⟩ := hothers
  exact ⟨first, second, third, fourth, hseparators, (List.take_append_drop ..).symm, hcolon, hsplits⟩

section Written

variable {body pre old password : Text} {fields : PgpassFields}

/-- A text that neither scan of a line nor the split into lines looks into. -/
structure IsPlain (password : Text) : Prop where
  nonempty : password ≠ []
  plain : ∀ c ∈ password, c ≠ backslash ∧ c ≠ colon
  unbroken : ∀ c ∈ password, isBoundary c = false

theorem PasswordCut.splitPgpassFields_written (h : PasswordCut body pre old fields)
    (hplain : IsPlain password) :
    splitPgpassFields (pre ++ password) = .ok { fields with password := password } := by
  have hscan : splitFields false [] (password ++ []) = splitFields false ([] ++ password) [] :=
    splitFields_plain hplain.plain
  have hread : splitFields false [] password = some [password] := by
    simpa [splitFields] using hscan
  rw [splitPgpassFields_eq_ok, h.splits, hread]
  rfl

/-- What stands behind a written password becomes part of it, or breaks the entry. -/
theorem PasswordCut.splitPgpassFields_joined (h : PasswordCut body pre old fields)
    (hplain : IsPlain password) (hbehind : behind ≠ []) {read : PgpassFields}
    (hread : splitPgpassFields (pre ++ (password ++ behind)) = .ok read) :
    read.password ≠ password ∧ { read with password := fields.password } = fields := by
  rw [splitPgpassFields_eq_ok, h.splits, splitFields_plain hplain.plain, List.nil_append] at hread
  obtain ⟨others, hothers, hfields⟩ := Option.map_eq_some_iff.mp hread
  simp only [List.cons_append, List.nil_append, List.cons.injEq] at hfields
  obtain ⟨hhost, hport, hname, huser, rfl⟩ := hfields
  have hlength := length_le_of_splitFields hothers
  rw [if_pos (.inr hbehind)] at hlength
  constructor
  · intro heq
    rw [heq] at hlength
    omega
  · cases fields
    cases read
    simp_all

end Written

/-! ## A valid password -/

theorem isPlain_char {c : CodePoint} (h : isSafe c = true) :
    (c ≠ backslash ∧ c ≠ colon) ∧ isBoundary c = false := by
  cases c with
  | surrogate low => cases h
  | scalar c =>
    have hrange : c.toNat ≠ '\\'.toNat ∧ c.toNat ≠ ':'.toNat ∧ 0x20 ≤ c.toNat ∧ c.toNat < 0x80 := by
      simp [isSafe] at h
      simp
      omega
    refine ⟨⟨?_, ?_⟩, ?_⟩
    · intro heq
      exact hrange.1 (congrArg Char.toNat (CodePoint.scalar.inj heq))
    · intro heq
      exact hrange.2.1 (congrArg Char.toNat (CodePoint.scalar.inj heq))
    · simp only [isBoundary, List.mem_cons, List.not_mem_nil, or_false, decide_eq_false_iff_not]
      omega

theorem exists_encode (h : ∀ c ∈ text, isSafe c = true) : ∃ bytes, encode text = some bytes := by
  simp only [encode_eq_some]
  induction text with
  | nil => exact ⟨_, [], rfl, rfl⟩
  | cons c text ih =>
    rw [List.forall_mem_cons] at h
    obtain ⟨_, chars, rfl, -⟩ := ih h.2
    cases c with
    | surrogate low => exact absurd h.1 (by simp [isSafe])
    | scalar c => exact ⟨_, c :: chars, rfl, rfl⟩

theorem validateNewPassword_eq_ok {password : Text} (h : validateNewPassword password = .ok ()) :
    IsPlain password ∧ (∃ bytes, encode password = some bytes) ∧
      escapePgpassPassword password = .ok password := by
  simp only [validateNewPassword, bind_eq_ok, raiseIf_eq_ok, mapError_eq_ok, not_not] at h
  obtain ⟨-, hlength, -, hsafe, encoded, -, -, -, escaped, hescaped, hsame⟩ := h
  have hall : ∀ c ∈ password, isSafe c = true := by
    simpa using hsafe
  rw [hsame] at hescaped
  refine ⟨⟨?_, ?_, ?_⟩, exists_encode hall, hescaped⟩
  · rintro rfl
    exact absurd hlength.1 (by decide)
  · intro c hc
    exact (isPlain_char (hall c hc)).1
  · intro c hc
    exact (isPlain_char (hall c hc)).2

end IsadoraAir.DbCredentials
