import IsadoraAir.Foundation.Decimals

/-!
# Spellings of a UUID

`uuid.UUID(text)` accepts many spellings of one number of 128 bits. The canonical
one has 32 lowercase hexadecimal digits in five groups, and it is read back.
-/

namespace IsadoraAir

variable {n width : ℕ}

/-!
## Hexadecimal numbers
-/

namespace Hex

def hexValue (c : Char) : ℕ :=
  if c.isDigit then c.toNat - 48 else c.toLower.toNat - 87

def isHexDigit (c : Char) : Bool := c.isDigit || ('a' ≤ c.toLower && c.toLower ≤ 'f')

def ofDigits (digits : List Char) : ℕ := digits.foldl (fun n c => 16 * n + hexValue c) 0

/-- A blank for `int`, which knows only those of ASCII. -/
def isBlank (c : Char) : Bool := (9 ≤ c.toNat && c.toNat ≤ 13) || c = ' '

/-- What follows `0x`, which may itself be followed by an underscore. -/
def unprefixed : List Char → List Char
  | '0' :: c :: rest =>
    if c.toLower = 'x' then (if rest.head? = some '_' then rest.tail else rest)
    else '0' :: c :: rest
  | text => text

/-- Digits in groups, with one underscore between two groups. -/
def readGroups (text : List Char) : Option ℕ :=
  let groups := text.splitOn '_'
  if groups.all fun group => group ≠ [] && group.all isHexDigit then some (ofDigits groups.flatten)
  else none

/-- `int(text, 16)`; `none` when that raises `ValueError`. -/
def readInt (digit : Char → Option (Fin 10)) (text : Text) : Option ℤ :=
  (Text.toAscii digit text).bind fun chars =>
    let number := Decimal.signed (trim isBlank chars)
    (readGroups (unprefixed number.2)).map fun n => if number.1 then -(n : ℤ) else n

/-- `"%0*x" % (width, n)` of a number of at most `width` digits. -/
def lowerHex : ℕ → ℕ → List Char
  | 0, _ => []
  | width + 1, n => lowerHex width (n / 16) ++ [Nat.digitChar (n % 16)]

theorem hexValue_digitChar : ∀ n < 16, hexValue (Nat.digitChar n) = n := by decide

@[simp] theorem length_lowerHex (width n : ℕ) : (lowerHex width n).length = width := by
  induction width generalizing n with
  | zero => rfl
  | succ width ih => rw [lowerHex, List.length_append, ih, List.length_singleton]

/-- What holds of the sixteen digits. -/
theorem forall_mem_lowerHex {p : Char → Bool} (hp : ∀ d < 16, p (Nat.digitChar d) = true)
    : ∀ c ∈ lowerHex width n, p c = true := by
  induction width generalizing n with
  | zero => simp [lowerHex]
  | succ width ih =>
    intro c hc
    rcases List.mem_append.mp hc with hc | hc
    · exact ih c hc
    · rw [List.mem_singleton.mp hc]
      exact hp _ (Nat.mod_lt _ (by decide))

theorem isPlain_of_mem_lowerHex : ∀ c ∈ lowerHex width n, Text.isPlain c = true :=
  forall_mem_lowerHex (by decide)

theorem isHexDigit_of_mem_lowerHex : ∀ c ∈ lowerHex width n, isHexDigit c = true :=
  forall_mem_lowerHex (by decide)

theorem ne_of_mem_lowerHex {c mark : Char} (hc : c ∈ lowerHex width n)
    (hmark : ∀ d < 16, Nat.digitChar d ≠ mark) : c ≠ mark := by
  have hc := forall_mem_lowerHex (p := fun c => decide (c ≠ mark)) (by simpa using hmark) c hc
  simpa using hc

theorem ofDigits_lowerHex (width n : ℕ) : ofDigits (lowerHex width n) = n % 16 ^ width := by
  induction width generalizing n with
  | zero => simp [lowerHex, ofDigits, Nat.mod_one]
  | succ width ih =>
    have hlast := hexValue_digitChar (n % 16) (Nat.mod_lt _ (by decide))
    have hfront := ih (n / 16)
    rw [ofDigits] at hfront ⊢
    rw [lowerHex, List.foldl_append, List.foldl_cons, List.foldl_nil, hfront, hlast, pow_succ',
      Nat.mod_mul]
    omega

theorem readGroups_lowerHex (hwidth : 0 < width) (n : ℕ) :
    readGroups (lowerHex width n) = some (n % 16 ^ width) := by
  have hsplit : (lowerHex width n).splitOn '_' = [lowerHex width n] := by
    refine List.splitOnP_eq_singleton fun c hc => ?_
    simpa using ne_of_mem_lowerHex hc (by decide)
  have hne : lowerHex width n ≠ [] := List.ne_nil_of_length_pos (by simpa using hwidth)
  rw [readGroups, hsplit, if_pos, List.flatten_singleton, ofDigits_lowerHex]
  simpa [hne] using isHexDigit_of_mem_lowerHex

theorem trim_lowerHex (width n : ℕ) : trim isBlank (lowerHex width n) = lowerHex width n := by
  have hblank : ∀ c ∈ lowerHex width n, (!isBlank c) = true := forall_mem_lowerHex (by decide)
  simp only [Bool.not_eq_true'] at hblank
  exact trim_eq_self_iff.mpr ⟨fun c hc => hblank c (List.mem_of_mem_head? hc),
    fun c hc => hblank c (List.mem_of_mem_getLast? hc)⟩

theorem signed_lowerHex (width n : ℕ) :
    Decimal.signed (lowerHex width n) = (false, lowerHex width n) := by
  unfold Decimal.signed
  split
  · next rest heq =>
    exact absurd rfl (ne_of_mem_lowerHex (heq ▸ List.mem_cons_self) (by decide))
  · next rest heq =>
    exact absurd rfl (ne_of_mem_lowerHex (heq ▸ List.mem_cons_self) (by decide))
  · rfl

theorem unprefixed_lowerHex (width n : ℕ) : unprefixed (lowerHex width n) = lowerHex width n := by
  have hmark : ∀ c ∈ lowerHex width n, decide (c.toLower ≠ 'x') = true :=
    forall_mem_lowerHex (by decide)
  unfold unprefixed
  split
  · next c rest heq =>
    have hc := hmark c (by simp [heq])
    rw [if_neg (of_decide_eq_true hc), heq]
  · rfl

theorem readInt_lowerHex {digit : Char → Option (Fin 10)} (hwidth : 0 < width) (n : ℕ) :
    readInt digit ((lowerHex width n).map .scalar) = some ((n % 16 ^ width : ℕ) : ℤ) := by
  rw [readInt, Text.toAscii_map_scalar isPlain_of_mem_lowerHex, Option.bind_some, trim_lowerHex,
    signed_lowerHex]
  simp [unprefixed_lowerHex, readGroups_lowerHex hwidth]

end Hex

end IsadoraAir

/-!
## UUIDs
-/

namespace IsadoraAir

namespace Text

/-- `text.replace(pattern, "")`; `skip` characters of the last occurrence are still to be read. -/
def remove (pattern : Text) : ℕ → Text → Text
  | _, [] => []
  | skip + 1, _ :: rest => remove pattern skip rest
  | 0, c :: rest =>
    if pattern.isPrefixOf (c :: rest) then remove pattern (pattern.length - 1) rest
    else c :: remove pattern 0 rest

theorem remove_eq_self {pattern text : Text} {c : CodePoint} (hc : c ∈ pattern) (h : c ∉ text) :
    remove pattern 0 text = text := by
  induction text with
  | nil => rfl
  | cons d rest ih =>
    have hstart : pattern.isPrefixOf (d :: rest) = false := by
      rw [Bool.eq_false_iff, ne_eq, List.isPrefixOf_iff_prefix]
      intro hstart
      exact h (hstart.subset hc)
    rw [remove, hstart, if_neg Bool.false_ne_true, ih fun hmem => h (List.mem_cons_of_mem _ hmem)]

end Text

/-- A number of 128 bits. -/
abbrev UuidNumber := Fin (2 ^ 128)

namespace UuidNumber

def isBrace : CodePoint → Bool
  | .scalar c => c = '\x7b' || c = '\x7d'
  | .surrogate _ => false

/-- The hexadecimal digits of a spelling. -/
def bare (text : Text) : Text :=
  let unmarked := Text.remove (codePoints "uuid:") 0 (Text.remove (codePoints "urn:") 0 text)
  (trim isBrace unmarked).filter (· ≠ .scalar '-')

/-- `uuid.UUID(text)`; `none` when that raises `ValueError`. -/
def ofText (digit : Char → Option (Fin 10)) (text : Text) : Option UuidNumber :=
  if (bare text).length = 32 then
    (Hex.readInt digit (bare text)).bind fun n =>
      if h : 0 ≤ n ∧ n < 2 ^ 128 then some ⟨n.toNat, by omega⟩ else none
  else none

/-- The digits in groups of 8, 4, 4, 4 and 12. -/
def groups (u : UuidNumber) : List (List Char) :=
  let hex := Hex.lowerHex 32 u
  [hex.take 8, (hex.drop 8).take 4, (hex.drop 12).take 4, (hex.drop 16).take 4, hex.drop 20]

/-- `str(u)` -/
def str (u : UuidNumber) : List Char := ['-'].intercalate u.groups

variable {digit : Char → Option (Fin 10)} (u : UuidNumber)

theorem flatten_groups : u.groups.flatten = Hex.lowerHex 32 u := by
  have hpart : ∀ n, ((Hex.lowerHex 32 u).drop n).take 4 ++ (Hex.lowerHex 32 u).drop (n + 4) =
      (Hex.lowerHex 32 u).drop n := by
    intro n
    rw [← List.drop_drop, List.take_append_drop]
  simp only [groups, List.flatten_cons, List.flatten_nil, List.append_nil]
  rw [hpart 16, hpart 12, hpart 8, List.take_append_drop]

theorem mem_lowerHex_of_mem_groups {group : List Char} {c : Char} (hgroup : group ∈ u.groups)
    (hc : c ∈ group) : c ∈ Hex.lowerHex 32 u := by
  rw [← flatten_groups]
  exact List.mem_flatten_of_mem hgroup hc

theorem filter_intercalate {sep : Char} {groups : List (List Char)}
    (h : ∀ group ∈ groups, sep ∉ group) :
    ([sep].intercalate groups).filter (· ≠ sep) = groups.flatten := by
  induction groups with
  | nil => rfl
  | cons group groups ih =>
    have hgroup : group.filter (· ≠ sep) = group := by
      rw [List.filter_eq_self]
      rintro c hc
      have hne : c ≠ sep := fun heq => h group (by simp) (heq ▸ hc)
      simpa using hne
    have hgroups := ih fun rest hrest => h rest (List.mem_cons_of_mem _ hrest)
    cases groups with
    | nil => simpa using hgroup
    | cons next groups =>
      rw [List.intercalate_cons_cons, List.filter_append, List.filter_append, hgroups, hgroup]
      simp

theorem filter_str : u.str.filter (· ≠ '-') = Hex.lowerHex 32 u := by
  rw [str, filter_intercalate, flatten_groups]
  intro group hgroup hmem
  exact Hex.ne_of_mem_lowerHex (mem_lowerHex_of_mem_groups u hgroup hmem) (by decide) rfl

theorem mem_str {c : Char} (h : c ∈ u.str) : c = '-' ∨ c ∈ Hex.lowerHex 32 u := by
  by_cases hc : c = '-'
  · exact .inl hc
  · rw [← filter_str]
    exact .inr (List.mem_filter.mpr ⟨h, by simpa using hc⟩)

theorem not_mem_str {mark : Char} (hdash : mark ≠ '-') (hmark : ∀ d < 16, Nat.digitChar d ≠ mark) :
    CodePoint.scalar mark ∉ (u.str.map CodePoint.scalar) := by
  intro hmem
  obtain ⟨c, hc, heq⟩ := List.mem_map.mp hmem
  obtain rfl : c = mark := by simpa using heq
  rcases mem_str u hc with rfl | hc
  · exact hdash rfl
  · exact Hex.ne_of_mem_lowerHex hc hmark rfl

theorem bare_str : bare (u.str.map .scalar) = (Hex.lowerHex 32 u).map .scalar := by
  have hcolon : CodePoint.scalar ':' ∉ u.str.map CodePoint.scalar :=
    not_mem_str u (by decide) (by decide)
  have htrim : trim isBrace (u.str.map .scalar) = u.str.map .scalar := by
    have hbrace : ∀ c ∈ u.str.map CodePoint.scalar, isBrace c = false := by
      intro c hc
      have hopen : c ≠ .scalar '\x7b' := fun heq =>
        not_mem_str u (by decide) (by decide) (heq ▸ hc)
      have hclose : c ≠ .scalar '\x7d' := fun heq =>
        not_mem_str u (by decide) (by decide) (heq ▸ hc)
      cases c <;> simp_all [isBrace]
    exact trim_eq_self_iff.mpr ⟨fun c hc => hbrace c (List.mem_of_mem_head? hc),
      fun c hc => hbrace c (List.mem_of_mem_getLast? hc)⟩
  have hfilter : (u.str.map CodePoint.scalar).filter (· ≠ .scalar '-') =
      (u.str.filter (· ≠ '-')).map CodePoint.scalar := by
    have hdash : ((fun c => decide (c ≠ .scalar '-')) ∘ CodePoint.scalar) =
        fun c => decide (c ≠ '-') := by
      funext c
      simp
    rw [List.filter_map, hdash]
  have hurn : CodePoint.scalar ':' ∈ codePoints "urn:" := by decide
  have huuid : CodePoint.scalar ':' ∈ codePoints "uuid:" := by decide
  rw [bare, Text.remove_eq_self hurn hcolon, Text.remove_eq_self huuid hcolon, htrim, hfilter,
    filter_str]

/-- The canonical spelling is read back. -/
theorem ofText_str : ofText digit (u.str.map .scalar) = some u := by
  have hu := u.isLt
  have hread : Hex.readInt digit ((Hex.lowerHex 32 u).map .scalar) =
      some (((u : ℕ) % 16 ^ 32 : ℕ) : ℤ) := Hex.readInt_lowerHex (by decide) u
  have hmod : (u : ℕ) % 16 ^ 32 = u := Nat.mod_eq_of_lt (by omega)
  rw [hmod] at hread
  rw [ofText, bare_str, if_pos (by simp), hread, Option.bind_some, dif_pos (by omega)]
  simp

end UuidNumber

end IsadoraAir
