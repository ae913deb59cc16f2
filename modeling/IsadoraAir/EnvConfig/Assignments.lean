import IsadoraAir.Foundation.Dict
import IsadoraAir.Foundation.TextLines

/-!
# Assignments of the environment file

The three readings of one line format: the encoder that writes a value, the
scanner that finds the line of a key before an update, and the reader every
consumer of the file uses. A line the encoder wrote is read back by the other two.
-/

namespace IsadoraAir.EnvConfig

open Text

inductive EnvConfigError where
  | unregisteredKey (key : Text)
  | duplicateManagedKey (key : Text)
  | invalidValue (key : Text) (message : String)
  | unsafeValue (message : String)
  | envWrite (message : String)
  deriving DecidableEq

def singleQuote : CodePoint := .scalar '\''

def doubleQuote : CodePoint := .scalar '"'

def backslash : CodePoint := .scalar '\\'

def hash : CodePoint := .scalar '#'

def equals : CodePoint := .scalar '='

/-! ## The encoder -/

/-- `_FORBIDDEN_CHARS` -/
def isForbidden (c : CodePoint) : Bool := c = cr || c = lf || c = .scalar '\x00'

def needsQuoting (raw : Text) : Bool :=
  raw ≠ strip raw || raw.contains backslash ||
    (raw.head? = raw.getLast? && (raw.head? = some singleQuote || raw.head? = some doubleQuote))

def encodeEnvValue (raw : Text) : Except EnvConfigError Text :=
  if raw.any isForbidden then
    .error (.unsafeValue "value contains a newline, carriage return, or NUL character, which cannot be represented in a .env assignment")
  else if raw = [] then .ok []
  else if needsQuoting raw = false then .ok raw
  else if singleQuote ∉ raw then .ok (singleQuote :: raw ++ [singleQuote])
  else if doubleQuote ∉ raw ∧ backslash ∉ raw then .ok (doubleQuote :: raw ++ [doubleQuote])
  else
    .error (.unsafeValue "this value can't be safely represented in .env format (it needs quoting but contains both a single quote and a double-quote-or-backslash) -- choose a value that avoids this exact combination")

/-- The three forms an encoded value can have. -/
inductive Encodes (raw : Text) : Text → Prop
  | empty (h : raw = []) : Encodes raw []
  | bare (hne : raw ≠ []) (h : needsQuoting raw = false) : Encodes raw raw
  | quoted (q : CodePoint) (h : q = singleQuote ∨ q = doubleQuote) :
      Encodes raw (q :: raw ++ [q])

theorem encodes_of_encodeEnvValue {raw encoded : Text} (h : encodeEnvValue raw = .ok encoded) :
    (∀ c ∈ raw, isForbidden c = false) ∧ Encodes raw encoded := by
  unfold encodeEnvValue at h
  split_ifs at h with hforbidden hempty hquoting hsingle hdouble
  all_goals
    simp only [List.any_eq_true, not_exists, not_and, Bool.not_eq_true] at hforbidden
    refine ⟨hforbidden, ?_⟩
    cases h
  · exact hempty ▸ .empty rfl
  · exact .bare hempty hquoting
  · exact .quoted doubleQuote (.inr rfl)
  · exact .quoted singleQuote (.inl rfl)

/-! ## The reader and the scanner -/

/-- One matching outer quote pair removed. -/
def unquote (value : Text) : Text :=
  if 2 ≤ value.length ∧ value.head? = value.getLast? ∧
      (value.head? = some singleQuote ∨ value.head? = some doubleQuote) then
    value.tail.dropLast
  else value

/-- What `RepositoryEnv` makes of one line: a key with its value, or nothing. -/
def assignment (line : Text) : Option (Text × Text) :=
  let stripped := strip line
  if stripped = [] ∨ stripped.head? = some hash ∨ equals ∉ stripped then none
  else
    some (strip (stripped.takeWhile (· ≠ equals)),
      unquote (strip (stripped.dropWhile (· ≠ equals)).tail))

/-- The key of an active assignment line, as `_parse_lines` finds it. -/
def activeKey (line : Text) : Option Text :=
  let stripped := strip line
  if stripped ≠ [] ∧ stripped.head? ≠ some hash ∧ equals ∈ stripped then
    some (strip (stripped.takeWhile (· ≠ equals)))
  else none

/-- The scanner finds the key the reader finds. -/
theorem activeKey_eq (line : Text) : activeKey line = (assignment line).map Prod.fst := by
  unfold activeKey assignment
  by_cases h : strip line = [] ∨ (strip line).head? = some hash ∨ equals ∉ strip line
  · have hnot : ¬(strip line ≠ [] ∧ (strip line).head? ≠ some hash ∧ equals ∈ strip line) := by
      tauto
    simp only [h, hnot, if_true, if_false, Option.map_none]
  · have hall : strip line ≠ [] ∧ (strip line).head? ≠ some hash ∧ equals ∈ strip line := by
      tauto
    rw [if_pos hall, if_neg h, Option.map_some]

/-- A key as the registered ones are: nothing in it can be read as part of the format. -/
structure PlainKey (key : Text) : Prop where
  nonempty : key ≠ []
  uncommented : key.head? ≠ some hash
  trimmed : strip key = key
  noEquals : equals ∉ key
  noFeed : lf ∉ key
  noReturn : cr ∉ key

instance (key : Text) : Decidable (PlainKey key) :=
  decidable_of_iff (key ≠ [] ∧ key.head? ≠ some hash ∧ strip key = key ∧ equals ∉ key ∧
      lf ∉ key ∧ cr ∉ key)
    ⟨fun ⟨a, b, c, d, e, f⟩ => ⟨a, b, c, d, e, f⟩, fun ⟨a, b, c, d, e, f⟩ => ⟨a, b, c, d, e, f⟩⟩

/-- `f"{key}={encoded}"` -/
def assign (key encoded : Text) : Text := key ++ equals :: encoded

theorem getLast?_quoted (q : CodePoint) (raw : Text) : (q :: (raw ++ [q])).getLast? = some q := by
  rw [← List.cons_append, List.getLast?_concat]

namespace Encodes

variable {raw encoded : Text}

theorem strip_eq (h : Encodes raw encoded) : strip encoded = encoded := by
  cases h with
  | empty => rfl
  | bare hne hq =>
    simp only [needsQuoting, Bool.or_eq_false_iff, decide_eq_false_iff_not, not_not] at hq
    exact hq.1.1.symm
  | quoted q hq =>
    have hspace : isSpace q = false := by
      rcases hq with rfl | rfl <;> decide
    exact strip_eq_self (by simp [hspace]) (by simp [getLast?_quoted, hspace])

theorem unquote_eq (h : Encodes raw encoded) : unquote encoded = raw := by
  cases h with
  | empty hraw => simp [unquote, hraw]
  | bare hne hq =>
    simp only [needsQuoting, Bool.or_eq_false_iff, Bool.and_eq_false_iff,
      decide_eq_false_iff_not] at hq
    unfold unquote
    rw [if_neg]
    rintro ⟨-, hsame, hquote⟩
    tauto
  | quoted q hq =>
    have hquote : (some q = some singleQuote ∨ some q = some doubleQuote) := by
      simpa using hq
    rw [unquote, if_pos ⟨by simp, by simp [getLast?_quoted], by simpa using hquote⟩]
    simp

theorem not_mem (h : Encodes raw encoded) {c : CodePoint} (hc : c ∉ raw)
    (hsingle : c ≠ singleQuote) (hdouble : c ≠ doubleQuote) : c ∉ encoded := by
  cases h with
  | empty => simp
  | bare => exact hc
  | quoted q hq => rcases hq with rfl | rfl <;> simp [hc, hsingle, hdouble]

end Encodes

theorem lf_cr_not_mem_of_encodeEnvValue {raw encoded : Text}
    (h : encodeEnvValue raw = .ok encoded) : lf ∉ encoded ∧ cr ∉ encoded := by
  obtain ⟨hplain, hencodes⟩ := encodes_of_encodeEnvValue h
  constructor
  · refine hencodes.not_mem (fun hmem => ?_) (by decide) (by decide)
    exact absurd (hplain _ hmem) (by decide)
  · refine hencodes.not_mem (fun hmem => ?_) (by decide) (by decide)
    exact absurd (hplain _ hmem) (by decide)

section Written

variable {key raw encoded : Text}

theorem lf_cr_not_mem_assign (hkey : PlainKey key) (h : encodeEnvValue raw = .ok encoded) :
    lf ∉ assign key encoded ∧ cr ∉ assign key encoded := by
  obtain ⟨hlf, hcr⟩ := lf_cr_not_mem_of_encodeEnvValue h
  have hequals : lf ≠ equals ∧ cr ≠ equals := by decide
  simp [assign, hkey.noFeed, hkey.noReturn, hlf, hcr, hequals]

theorem strip_assign (hkey : PlainKey key) (h : encodeEnvValue raw = .ok encoded) :
    strip (assign key encoded) = assign key encoded := by
  have hencoded := (encodes_of_encodeEnvValue h).2.strip_eq
  refine strip_eq_self ?_ ?_
  · intro c hc
    rw [assign, List.head?_append_of_ne_nil _ hkey.nonempty] at hc
    exact head?_strip (hkey.trimmed ▸ hc)
  · intro c hc
    rw [assign, List.getLast?_append_of_ne_nil _ (by simp)] at hc
    by_cases hempty : encoded = []
    · subst hempty
      simp only [List.getLast?_singleton, Option.mem_some] at hc
      subst hc
      decide
    · rw [List.getLast?_cons_of_ne_nil hempty] at hc
      exact getLast?_strip (hencoded ▸ hc)

/-- What the encoder writes for a key is read back as that key with the raw value. -/
theorem assignment_assign (hkey : PlainKey key) (h : encodeEnvValue raw = .ok encoded) :
    assignment (assign key encoded) = some (key, raw) := by
  have hencodes := (encodes_of_encodeEnvValue h).2
  have hhead : (assign key encoded).head? ≠ some hash := by
    rw [assign, List.head?_append_of_ne_nil _ hkey.nonempty]
    exact hkey.uncommented
  have hbefore : ∀ c ∈ key, decide (c ≠ equals) = true := by
    intro c hc
    have hne : c ≠ equals := by
      rintro rfl
      exact hkey.noEquals hc
    simpa using hne
  have htake : (assign key encoded).takeWhile (· ≠ equals) = key := by
    rw [assign, List.takeWhile_append_of_pos hbefore]
    simp
  have hdrop : (assign key encoded).dropWhile (· ≠ equals) = equals :: encoded := by
    rw [assign, List.dropWhile_append_of_pos hbefore]
    simp
  have hactive : ¬(assign key encoded = [] ∨ (assign key encoded).head? = some hash ∨
      equals ∉ assign key encoded) := by
    simp only [not_or, not_not]
    exact ⟨by simp [assign], hhead, by simp [assign]⟩
  simp only [assignment, strip_assign hkey h, if_neg hactive, htake, hdrop, hkey.trimmed,
    List.tail_cons, hencodes.strip_eq, hencodes.unquote_eq]

theorem activeKey_assign (hkey : PlainKey key) (h : encodeEnvValue raw = .ok encoded) :
    activeKey (assign key encoded) = some key := by
  simp [activeKey_eq, assignment_assign hkey h]

end Written

theorem assignment_congr {line line' : Text} (h : strip line = strip line') :
    assignment line = assignment line' := by
  simp only [assignment, h]

theorem activeKey_congr {line line' : Text} (h : strip line = strip line') :
    activeKey line = activeKey line' := by
  simp only [activeKey, h]

/-! ## The data of a file -/

/-- `RepositoryEnv.data` of the lines it has read; a later assignment replaces an earlier one. -/
def dataOf (lines : List Text) : Dict Text Text :=
  (lines.filterMap assignment).foldl (fun data item => data.insert item.1 item.2) Dict.empty

/-- `RepositoryEnv(path).data` for a file with this text. -/
def repositoryData (text : Text) : Dict Text Text :=
  dataOf ((universalLines text).map Line.text)

section Data

variable (key : Text) (line : Text) (lines : List Text)

theorem get?_dataOf_concat :
    (dataOf (lines ++ [line])).get? key =
      if activeKey line = some key then (assignment line).map Prod.snd
      else (dataOf lines).get? key := by
  rw [activeKey_eq]
  cases h : assignment line with
  | none => simp [dataOf, h]
  | some item =>
    have hconcat : dataOf (lines ++ [line]) = (dataOf lines).insert item.1 item.2 := by
      simp [dataOf, h]
    rw [hconcat, Dict.get?_insert]
    simp [eq_comm]

variable {key line lines}

theorem get?_dataOf_append (before after : List Text) :
    (dataOf (before ++ after)).get? key =
      ((dataOf after).get? key).or ((dataOf before).get? key) := by
  induction after using List.reverseRecOn with
  | nil => simp [dataOf]
  | append_singleton after line ih =>
    rw [← List.append_assoc, get?_dataOf_concat, get?_dataOf_concat, ih, activeKey_eq]
    split_ifs with h
    · obtain ⟨item, hitem, -⟩ := Option.map_eq_some_iff.mp h
      simp [hitem]
    · rfl

theorem get?_dataOf_eq_none (h : ∀ line ∈ lines, activeKey line ≠ some key) :
    (dataOf lines).get? key = none := by
  induction lines using List.reverseRecOn with
  | nil => rfl
  | append_singleton lines line ih =>
    simp only [List.mem_append, List.mem_singleton, or_imp, forall_and, forall_eq] at h
    rw [get?_dataOf_concat, if_neg h.2, ih h.1]

/-- Only the lines of a key say what its value is. -/
theorem get?_dataOf_filter (lines : List Text) {keep : Text → Bool}
    (h : ∀ line, activeKey line = some key → keep line = true) :
    (dataOf (lines.filter keep)).get? key = (dataOf lines).get? key := by
  induction lines using List.reverseRecOn with
  | nil => rfl
  | append_singleton lines line ih =>
    rw [List.filter_append, get?_dataOf_concat]
    by_cases hkeep : keep line = true
    · rw [List.filter_singleton, hkeep, cond_true, get?_dataOf_concat, ih]
    · have hkey : activeKey line ≠ some key := fun hactive => hkeep (h line hactive)
      rw [List.filter_singleton, Bool.eq_false_iff.mpr hkeep, cond_false, List.append_nil,
        if_neg hkey, ih]

end Data

end IsadoraAir.EnvConfig
