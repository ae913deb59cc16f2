import IsadoraAir.Foundation.Json
import IsadoraAir.Foundation.Uuids

/-!
# The text of a JSON value

`json.dumps(value, sort_keys=True)` with its default separators. Each part of the
text shows where it ends, so the text determines the value, as long as the keys
of every object are written in order and no float occurs.
-/

namespace IsadoraAir.Json

variable {c : Char} {items : List (String × Json)} {v w : Json} {r s : List Char}

/-! ## Strings -/

def escape (c : Char) : List Char := (escapeChar c).toList

def quoteText (s : String) : List Char := '"' :: (s.toList.flatMap escape ++ ['"'])

/-- Four hexadecimal digits. -/
def hex4 (a b c d : Char) : ℕ := Hex.ofDigits [a, b, c, d]

/-- The character that an escape of one letter stands for. -/
def letterEscape (c : Char) : Char :=
  if c = 'n' then '\n' else if c = 'r' then '\r' else if c = 't' then '\t'
  else if c = 'b' then Char.ofNat 8 else if c = 'f' then Char.ofNat 12 else c

/-- What follows a high surrogate is read as the low one. -/
def readPair (high : ℕ) : List Char → Option (Char × List Char)
  | _ :: _ :: a :: b :: c :: d :: rest =>
    some (Char.ofNat (0x10000 + (high - 0xD800) * 0x400 + (hex4 a b c d - 0xDC00)), rest)
  | _ => none

/-- The first character of a string, and what follows it. -/
def readChar : List Char → Option (Char × List Char)
  | '\\' :: 'u' :: a :: b :: c :: d :: rest =>
    if 0xD800 ≤ hex4 a b c d ∧ hex4 a b c d < 0xDC00 then readPair (hex4 a b c d) rest
    else some (Char.ofNat (hex4 a b c d), rest)
  | '\\' :: c :: rest => some (letterEscape c, rest)
  | c :: rest => some (c, rest)
  | [] => none

theorem toList_hexDigits (n : ℕ) :
    (hexDigits n).toList = [Nat.digitChar (n / 4096 % 16), Nat.digitChar (n / 256 % 16),
      Nat.digitChar (n / 16 % 16), Nat.digitChar (n % 16)] := by
  simp [hexDigits, List.range_succ]

theorem hex4_hexDigits {n : ℕ} (h : n < 0x10000) :
    hex4 (Nat.digitChar (n / 4096 % 16)) (Nat.digitChar (n / 256 % 16))
      (Nat.digitChar (n / 16 % 16)) (Nat.digitChar (n % 16)) = n := by
  have hvalue : ∀ m, Hex.hexValue (Nat.digitChar (m % 16)) = m % 16 := fun m =>
    Hex.hexValue_digitChar _ (Nat.mod_lt m (by decide))
  simp only [hex4, Hex.ofDigits, List.foldl_cons, List.foldl_nil, hvalue]
  omega

theorem toNat_valid (c : Char) : c.toNat < 0xD800 ∨ 0xDFFF < c.toNat ∧ c.toNat < 0x110000 := c.valid

theorem readChar_escapeCode (c : Char) (rest : List Char) :
    readChar ((escapeCode c.toNat).toList ++ rest) = some (c, rest) := by
  have hvalid := toNat_valid c
  unfold escapeCode
  split_ifs with hbasic
  · have hhex := hex4_hexDigits hbasic
    simp only [String.toList_append, toList_hexDigits]
    show readChar ('\\' :: 'u' :: _ :: _ :: _ :: _ :: rest) = _
    rw [readChar, hhex, if_neg (by omega), Char.ofNat_toNat]
  · have hhigh : 0xD800 + (c.toNat - 0x10000) / 0x400 < 0x10000 := by omega
    have hlow : 0xDC00 + (c.toNat - 0x10000) % 0x400 < 0x10000 := by omega
    simp only [String.toList_append, toList_hexDigits]
    show readChar ('\\' :: 'u' :: _ :: _ :: _ :: _ :: '\\' :: 'u' :: _ :: _ :: _ :: _ :: rest) = _
    rw [readChar, hex4_hexDigits hhigh, if_pos (by omega), readPair, hex4_hexDigits hlow]
    have hcode : 0x10000 + (0xD800 + (c.toNat - 0x10000) / 0x400 - 0xD800) * 0x400 +
        (0xDC00 + (c.toNat - 0x10000) % 0x400 - 0xDC00) = c.toNat := by omega
    rw [hcode, Char.ofNat_toNat]

theorem readChar_escape (c : Char) (rest : List Char) :
    readChar (escape c ++ rest) = some (c, rest) := by
  unfold escape escapeChar
  split_ifs with h1 h2 h3 h4 h5 h6 h7
  all_goals first
    | subst_vars; rfl
    | skip
  · rw [String.toList_singleton, List.singleton_append, readChar.eq_3]
    · rintro a b d e rest' rfl
      exact absurd rfl h2
    · rintro a rest' rfl
      exact absurd rfl h2
  · exact readChar_escapeCode c rest

theorem escape_append {d : Char} (h : escape c ++ r = escape d ++ s) : c = d ∧ r = s := by
  have hread := readChar_escape c r
  rw [h, readChar_escape] at hread
  exact ⟨(congrArg Prod.fst (Option.some.inj hread)).symm,
    (congrArg Prod.snd (Option.some.inj hread)).symm⟩

/-- No character is written with a quotation mark at its beginning. -/
theorem escape_append_ne (c : Char) (r s : List Char) : escape c ++ r ≠ '"' :: s := by
  intro h
  have hread := readChar_escape c r
  rw [h, readChar.eq_3 '"' s (by simp) (by simp)] at hread
  obtain rfl : '"' = c := congrArg Prod.fst (Option.some.inj hread)
  exact absurd h (by simp [escape, escapeChar])

/-- A string ends at its quotation mark. -/
theorem quoteText_append {a b : String}
    (h : quoteText a ++ r = quoteText b ++ s) : a = b ∧ r = s := by
  have hchars : ∀ cs ds : List Char,
      cs.flatMap escape ++ '"' :: r = ds.flatMap escape ++ '"' :: s → cs = ds ∧ r = s := by
    intro cs
    induction cs with
    | nil =>
      intro ds heq
      cases ds with
      | nil => exact ⟨rfl, (List.cons.inj heq).2⟩
      | cons d ds =>
        rw [List.flatMap_cons, List.append_assoc] at heq
        exact absurd heq.symm (escape_append_ne d _ _)
    | cons c cs ih =>
      intro ds heq
      rw [List.flatMap_cons, List.append_assoc] at heq
      cases ds with
      | nil => exact absurd heq (escape_append_ne c _ _)
      | cons d ds =>
        rw [List.flatMap_cons, List.append_assoc] at heq
        obtain ⟨rfl, hrest⟩ := escape_append heq
        obtain ⟨rfl, hr⟩ := ih ds hrest
        exact ⟨rfl, hr⟩
  simp only [quoteText, List.cons_append, List.append_assoc, List.cons.injEq, true_and,
    List.nil_append] at h
  obtain ⟨hlist, hr⟩ := hchars _ _ h
  exact ⟨String.toList_injective hlist, hr⟩

/-! ## Values -/

/-- What follows a value does not go on with digits. -/
def Ends (r : List Char) : Prop := ∀ c ∈ r.head?, c.isDigit = false

/-- `", ".join(texts)` -/
def join : List (List Char) → List Char
  | [] => []
  | x :: xs => x ++ xs.flatMap fun y => ',' :: ' ' :: y

def intText (n : ℤ) : List Char :=
  if n < 0 then '-' :: Nat.toDigits 10 n.natAbs else Nat.toDigits 10 n.natAbs

/-- An item of an object. -/
def itemText (item : String × List Char) : List Char := quoteText item.1 ++ ':' :: ' ' :: item.2

mutual

/-- `json.dumps(value, sort_keys=True)` -/
def text : Json → List Char
  | null => "null".toList
  | bool b => if b then "true".toList else "false".toList
  | int n => intText n
  | float _ t => t.toList
  | str s => quoteText s
  | list items => '[' :: (join (textList items) ++ [']'])
  | obj items => '\x7b' :: (join ((sortItems (textItems items)).map itemText) ++ ['\x7d'])

def textList : List Json → List (List Char)
  | [] => []
  | x :: xs => text x :: textList xs

def textItems : List (String × Json) → List (String × List Char)
  | [] => []
  | (k, v) :: items => (k, text v) :: textItems items

end

mutual

/-- No float occurs, and the keys of every object are in order. -/
def Plain : Json → Prop
  | float _ _ => False
  | list items => PlainList items
  | obj items => (items.map Prod.fst).Pairwise (· ≤ ·) ∧ PlainItems items
  | _ => True

def PlainList : List Json → Prop
  | [] => True
  | x :: xs => Plain x ∧ PlainList xs

def PlainItems : List (String × Json) → Prop
  | [] => True
  | (_, v) :: items => Plain v ∧ PlainItems items

end

theorem textList_eq (items : List Json) : textList items = items.map text := by
  induction items with
  | nil => rfl
  | cons x xs ih => rw [textList, ih, List.map_cons]

theorem textItems_eq (items : List (String × Json)) :
    textItems items = items.map fun item => (item.1, text item.2) := by
  induction items with
  | nil => rfl
  | cons x xs ih => rw [textItems, ih, List.map_cons]

theorem plainList_iff {items : List Json} : PlainList items ↔ ∀ x ∈ items, Plain x := by
  induction items with
  | nil => simp [PlainList]
  | cons x xs ih => simp [PlainList, ih]

theorem plainItems_iff : PlainItems items ↔ ∀ item ∈ items, Plain item.2 := by
  induction items with
  | nil => simp [PlainItems]
  | cons x xs ih => simp [PlainItems, ih]

theorem sortItems_eq_self {α : Type} {items : List (String × α)}
    (h : (items.map Prod.fst).Pairwise (· ≤ ·)) : sortItems items = items :=
  List.Pairwise.insertionSort_eq (List.pairwise_map.mp h)

/-- The text of an object whose keys are in order. -/
theorem text_obj (h : (items.map Prod.fst).Pairwise (· ≤ ·)) :
    text (obj items) =
      '\x7b' :: (join (items.map fun item => itemText (item.1, text item.2)) ++ ['\x7d']) := by
  have hkeys : ((textItems items).map Prod.fst).Pairwise (· ≤ ·) := by
    rw [textItems_eq, List.map_map]
    exact h
  rw [text, sortItems_eq_self hkeys, textItems_eq, List.map_map]
  rfl

/-! ## What a text stands for -/

theorem intText_append {m n : ℤ} (hr : Ends r) (hs : Ends s)
    (h : intText m ++ r = intText n ++ s) : m = n ∧ r = s := by
  have hdigits : ∀ k : ℕ, ∀ c ∈ Nat.toDigits 10 k, c.isDigit = true := fun k c hc =>
    Decimal.isDigit_of_mem_toDigits hc
  have hnat : ∀ k l : ℕ, Nat.toDigits 10 k ++ r = Nat.toDigits 10 l ++ s → k = l ∧ r = s := by
    intro k l heq
    obtain ⟨htake, hdrop⟩ := Decimal.takeWhile_append_of_all (hdigits k) hr
    obtain ⟨htake', hdrop'⟩ := Decimal.takeWhile_append_of_all (hdigits l) hs
    rw [heq] at htake hdrop
    refine ⟨?_, hdrop.symm.trans hdrop'⟩
    rw [← Nat.ofDigitChars_ten_toDigits (n := k), ← htake, htake', Nat.ofDigitChars_ten_toDigits]
  have hminus : ∀ (k : ℕ) (t u : List Char), Nat.toDigits 10 k ++ t ≠ '-' :: u := by
    intro k t u heq
    obtain ⟨c, rest, hcons⟩ : ∃ c rest, Nat.toDigits 10 k = c :: rest :=
      List.exists_cons_of_ne_nil Nat.toDigits_ne_nil
    rw [hcons] at heq
    obtain rfl : c = '-' := (List.cons.inj heq).1
    exact absurd (hdigits k '-' (hcons ▸ List.mem_cons_self)) (by decide)
  unfold intText at h
  split_ifs at h with hm hn hn
  · obtain ⟨habs, hrest⟩ := hnat _ _ (List.cons.inj h).2
    exact ⟨by omega, hrest⟩
  · exact absurd h.symm (hminus _ _ _)
  · exact absurd h (hminus _ _ _)
  · obtain ⟨habs, hrest⟩ := hnat _ _ h
    exact ⟨by omega, hrest⟩

/-- A list of parts, each of which shows where it ends, up to a closing mark. -/
theorem join_append {α : Type} {f : α → List Char} {close : Char} {xs ys : List α}
    (hclose : close.isDigit = false ∧ close ≠ ',')
    (hfirst : ∀ x ∈ xs ++ ys, ∀ t u, f x ++ t ≠ close :: u)
    (hsplit : ∀ x ∈ xs, ∀ y ∈ ys, ∀ t u, Ends t → Ends u → f x ++ t = f y ++ u → x = y ∧ t = u)
    (h : join (xs.map f) ++ close :: r = join (ys.map f) ++ close :: s) : xs = ys ∧ r = s := by
  have hends : ∀ zs : List α, ∀ t, Ends ((zs.map f).flatMap (fun y => ',' :: ' ' :: y) ++
      close :: t) := by
    intro zs t c hc
    cases zs with
    | nil =>
      obtain rfl : close = c := by simpa using hc
      exact hclose.1
    | cons z zs =>
      obtain rfl : ',' = c := by simpa using hc
      rfl
  have htail : ∀ xs' ys' : List α, xs' ⊆ xs → ys' ⊆ ys →
      (xs'.map f).flatMap (fun y => ',' :: ' ' :: y) ++ close :: r =
        (ys'.map f).flatMap (fun y => ',' :: ' ' :: y) ++ close :: s → xs' = ys' ∧ r = s := by
    intro xs'
    induction xs' with
    | nil =>
      intro ys' _ _ heq
      cases ys' with
      | nil => exact ⟨rfl, (List.cons.inj heq).2⟩
      | cons y ys' => exact absurd (List.cons.inj heq).1 hclose.2
    | cons x xs' ih =>
      intro ys' hxs hys heq
      cases ys' with
      | nil => exact absurd (List.cons.inj heq).1.symm hclose.2
      | cons y ys' =>
        have hheads : f x ++ ((xs'.map f).flatMap (fun y => ',' :: ' ' :: y) ++ close :: r) =
            f y ++ ((ys'.map f).flatMap (fun y => ',' :: ' ' :: y) ++ close :: s) := by
          simpa using heq
        obtain ⟨rfl, hrest⟩ := hsplit x (hxs List.mem_cons_self) y (hys List.mem_cons_self) _ _
          (hends xs' r) (hends ys' s) hheads
        obtain ⟨rfl, hr⟩ := ih ys' (List.subset_of_cons_subset hxs)
          (List.subset_of_cons_subset hys) hrest
        exact ⟨rfl, hr⟩
  cases xs with
  | nil =>
    cases ys with
    | nil => exact ⟨rfl, (List.cons.inj h).2⟩
    | cons y ys =>
      rw [List.map_cons, join, List.append_assoc] at h
      exact absurd h.symm (hfirst y (by simp) _ _)
  | cons x xs =>
    cases ys with
    | nil =>
      rw [List.map_cons, join, List.append_assoc] at h
      exact absurd h (hfirst x (by simp) _ _)
    | cons y ys =>
      simp only [List.map_cons, join, List.append_assoc] at h
      obtain ⟨rfl, hrest⟩ := hsplit x List.mem_cons_self y List.mem_cons_self _ _ (hends xs r)
        (hends ys s) h
      obtain ⟨rfl, hr⟩ := htail xs ys (List.subset_cons_self _ _) (List.subset_cons_self _ _) hrest
      exact ⟨rfl, hr⟩

/-- What the first character of a text tells. -/
def shapeOf (c : Char) : ℕ :=
  if c = 'n' then 0 else if c = 't' ∨ c = 'f' then 1 else if c = '"' then 2
  else if c = '[' then 3 else if c = '\x7b' then 4 else 5

def shape : Json → ℕ
  | null => 0
  | bool _ => 1
  | str _ => 2
  | list _ => 3
  | obj _ => 4
  | _ => 5

theorem shapeOf_digit (h : c.isDigit = true) : shapeOf c = 5 := by
  have hne : ∀ d : Char, d.isDigit = false → c ≠ d := by
    rintro d hd rfl
    rw [h] at hd
    cases hd
  simp [shapeOf, hne]

theorem exists_text (h : Plain v) :
    ∃ c rest, text v = c :: rest ∧ shapeOf c = shape v ∧ c ≠ ']' := by
  cases v with
  | null => exact ⟨'n', _, rfl, by decide⟩
  | bool b => cases b <;> exact ⟨_, _, rfl, by decide⟩
  | int n =>
    rw [text, intText]
    split_ifs
    · exact ⟨'-', _, rfl, rfl, by decide⟩
    · obtain ⟨c, rest, hcons⟩ : ∃ c rest, Nat.toDigits 10 n.natAbs = c :: rest :=
        List.exists_cons_of_ne_nil Nat.toDigits_ne_nil
      have hmem : c ∈ Nat.toDigits 10 n.natAbs := hcons ▸ List.mem_cons_self
      have hdigit := Decimal.isDigit_of_mem_toDigits hmem
      refine ⟨c, rest, hcons, shapeOf_digit hdigit, ?_⟩
      rintro rfl
      exact absurd hdigit (by decide)
  | float q t => exact h.elim
  | str s => exact ⟨'"', _, rfl, rfl, by decide⟩
  | list items => exact ⟨'[', _, rfl, rfl, by decide⟩
  | obj items => exact ⟨'\x7b', _, rfl, rfl, by decide⟩

theorem shape_eq (hv : Plain v) (hw : Plain w)
    (h : text v ++ r = text w ++ s) : shape v = shape w := by
  obtain ⟨c, rest, hc, hshape, -⟩ := exists_text hv
  obtain ⟨d, rest', hd, hshape', -⟩ := exists_text hw
  rw [hc, hd] at h
  rw [← hshape, ← hshape', (List.cons.inj h).1]

/-- A text shows where it ends and which value it stands for. -/
theorem text_append (hv : Plain v) (hw : Plain w) (hr : Ends r)
    (hs : Ends s) (h : text v ++ r = text w ++ s) : v = w ∧ r = s := by
  induction hsize : sizeOf v using Nat.strongRecOn generalizing v w r s with
  | ind size ih =>
  have hshape := shape_eq hv hw h
  cases v with
  | float q t => exact hv.elim
  | null =>
    cases w <;> try cases hshape
    exact ⟨rfl, List.append_cancel_left h⟩
  | bool b =>
    cases w <;> try cases hshape
    rename_i b'
    cases b <;> cases b'
    · exact ⟨rfl, List.append_cancel_left h⟩
    · exact absurd (List.cons.inj h).1 (by decide)
    · exact absurd (List.cons.inj h).1 (by decide)
    · exact ⟨rfl, List.append_cancel_left h⟩
  | int n =>
    cases w <;> try cases hshape
    · obtain ⟨rfl, hrest⟩ := intText_append hr hs h
      exact ⟨rfl, hrest⟩
    · exact hw.elim
  | str a =>
    cases w <;> try cases hshape
    obtain ⟨rfl, hrest⟩ := quoteText_append h
    exact ⟨rfl, hrest⟩
  | list xs =>
    cases w <;> try cases hshape
    rename_i ys
    rw [Plain, plainList_iff] at hv hw
    simp only [text, textList_eq, List.cons_append, List.append_assoc, List.cons.injEq, true_and,
      List.nil_append] at h
    have hjoin := join_append (by decide) ?_ ?_ h
    · obtain ⟨rfl, hrest⟩ := hjoin
      exact ⟨rfl, hrest⟩
    · intro x hx t u heq
      have hplain : Plain x := by
        rcases List.mem_append.mp hx with hx | hx
        · exact hv x hx
        · exact hw x hx
      obtain ⟨c, rest, hc, -, hne⟩ := exists_text hplain
      rw [hc] at heq
      exact hne (List.cons.inj heq).1
    · intro x hx y hy t u ht hu heq
      have hlt := List.sizeOf_lt_of_mem hx
      rw [list.sizeOf_spec] at hsize
      exact ih (sizeOf x) (by omega) (hv x hx) (hw y hy) ht hu heq rfl
  | obj items =>
    cases w <;> try cases hshape
    rename_i items'
    rw [Plain, plainItems_iff] at hv hw
    rw [text_obj hv.1, text_obj hw.1] at h
    simp only [List.cons_append, List.append_assoc, List.cons.injEq, true_and,
      List.nil_append] at h
    have hjoin := join_append (by decide) ?_ ?_ h
    · obtain ⟨rfl, hrest⟩ := hjoin
      exact ⟨rfl, hrest⟩
    · intro x hx t u heq
      exact absurd (List.cons.inj heq).1 (by decide)
    · rintro ⟨k, x⟩ hx ⟨k', y⟩ hy t u ht hu heq
      simp only [itemText, List.append_assoc] at heq
      obtain ⟨rfl, hvalue⟩ := quoteText_append heq
      have hlt := List.sizeOf_lt_of_mem hx
      rw [Prod.mk.sizeOf_spec] at hlt
      rw [obj.sizeOf_spec] at hsize
      obtain ⟨rfl, hrest⟩ := ih (sizeOf x) (by omega) (hv.2 _ hx) (hw.2 _ hy) ht hu
        (List.cons.inj (List.cons.inj hvalue).2).2 rfl
      exact ⟨rfl, hrest⟩

/-- Values that are written in the same way are the same. -/
theorem text_injective (hv : Plain v) (hw : Plain w) (h : text v = text w) : v = w := by
  have hends : Ends [] := by simp [Ends]
  exact (text_append hv hw hends hends (by rw [h])).1

end IsadoraAir.Json
