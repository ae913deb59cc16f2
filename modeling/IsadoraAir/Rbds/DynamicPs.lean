import IsadoraAir.Foundation.PyError
import IsadoraAir.Foundation.Words
import Mathlib.Data.List.ModifyLast

/-!
# Dynamic PS frames

`rbds/services/dynamic_ps.py`: a text as the frames of eight characters that a
mode shows one after the other. Frame boundaries are those of the normalized
text.
-/

namespace IsadoraAir.Rbds

open Text (IsWord ljust space unwords)

variable {text : Text} {start : ℕ}

def psFrameWidth : ℕ := 8

def blankFrame : Text := List.replicate psFrameWidth space

/-! ## Normalization -/

/-- `_SMART_PUNCTUATION`, by code point: quotes, dashes and the ellipsis. -/
def smartPunctuation : List (ℕ × String) :=
  [(0x2018, "'"), (0x2019, "'"), (0x201A, "'"), (0x201B, "'"), (0x201C, "\""), (0x201D, "\""),
    (0x201E, "\""), (0x201F, "\""), (0x2013, "-"), (0x2014, "-"), (0x2015, "-"), (0x2026, "...")]

/-- `text.replace(smart, plain)` -/
def replaceChar (text : Text) (smart : ℕ) (plain : String) : Text :=
  text.flatMap fun c => if c = .scalar (Char.ofNat smart) then codePoints plain else [c]

/-- `_CONTROL_TRANSLATION` -/
def translateControl : CodePoint → CodePoint
  | .scalar c => if c.toNat < 0x20 ∨ c.toNat = 0x7F then space else .scalar c
  | .surrogate low => .surrogate low

/-- `normalize_text`; `nfc` is `unicodedata.normalize("NFC", text)`. -/
def normalizeText (nfc : Text → Text) (text : Text) : Text :=
  if text = [] then []
  else (smartPunctuation.foldl (fun text entry => replaceChar text entry.1 entry.2) (nfc text)).map
    translateControl

/-! ## Frames -/

/-- `text[start:start + PS_FRAME_WIDTH]` -/
def cell (text : Text) (start : ℕ) : Text := (text.drop start).take psFrameWidth

/-- `range(0, len(text), PS_FRAME_WIDTH)` has as many elements. -/
def cellCount (text : Text) : ℕ := (text.length + 7) / psFrameWidth

def fixedChunks (text : Text) : List Text :=
  if text = [] then [blankFrame]
  else ((List.range (cellCount text)).map fun i => cell text (psFrameWidth * i)).modifyLast
    (ljust psFrameWidth)

def slidingWindow (text : Text) : List Text :=
  if text.length ≤ psFrameWidth then [ljust psFrameWidth text]
  else (List.range (text.length - psFrameWidth + 1)).map (cell text)

/-- The frame that has been accumulated, if any. -/
def flush (current : Text) : List Text :=
  if current = [] then [] else [ljust psFrameWidth current]

/-- The loop of `_word_aligned`, and the flush after it. -/
def wrapWords : List Text → Text → List Text
  | [], current => flush current
  | word :: words, current =>
    if psFrameWidth < word.length then flush current ++ fixedChunks word ++ wrapWords words []
    else
      let candidate := if current = [] then word else current ++ space :: word
      if candidate.length ≤ psFrameWidth then wrapWords words candidate
      else ljust psFrameWidth current :: wrapWords words word

def wordAligned (text : Text) : List Text :=
  if text.words = [] then [blankFrame] else wrapWords text.words []

def scrollWithBlank (text : Text) : List Text :=
  if text = [] then [blankFrame] else slidingWindow (blankFrame ++ text ++ blankFrame)

def generatePsFrames (nfc : Text → Text) (text : Text) (mode : ℤ) : Except PyError (List Text) :=
  if mode = 0 then .ok (fixedChunks (normalizeText nfc text))
  else if mode = 1 then .ok (slidingWindow (normalizeText nfc text))
  else if mode = 2 then .ok (wordAligned (normalizeText nfc text))
  else if mode = 3 then .ok (scrollWithBlank (normalizeText nfc text))
  else .error .valueError

/-! ## Windows over a padded text -/

/-- Each frame is the window at its place, and every character is in some frame. -/
structure Covers (stride : ℕ) (padded : Text) (frames : List Text) : Prop where
  width : ∀ f ∈ frames, f.length = psFrameWidth
  frame : ∀ i f, frames[i]? = some f → f = cell padded (stride * i)
  covered : ∀ j < padded.length, ∃ i f, frames[i]? = some f ∧ stride * i ≤ j ∧
    j < stride * i + psFrameWidth

theorem length_cell (h : start + psFrameWidth ≤ text.length) :
    (cell text start).length = psFrameWidth := by
  simp only [cell, List.length_take, List.length_drop]
  omega

/-- Windows up to the last one that the text has room for. -/
theorem covers_range {stride n : ℕ} {padded : Text} (hstride : 0 < stride)
    (hwidth : stride ≤ psFrameWidth) (hlength : padded.length = stride * n + psFrameWidth) :
    Covers stride padded ((List.range (n + 1)).map fun i => cell padded (stride * i)) := by
  have hget (i : ℕ) (h : i ≤ n) :
      ((List.range (n + 1)).map fun i => cell padded (stride * i))[i]? =
        some (cell padded (stride * i)) := by
    simp [List.getElem?_range (Nat.lt_succ_of_le h)]
  constructor
  case width =>
    intro f hf
    obtain ⟨i, hi, rfl⟩ := List.mem_map.mp hf
    have hle : stride * i ≤ stride * n :=
      Nat.mul_le_mul_left stride (Nat.le_of_lt_succ (List.mem_range.mp hi))
    exact length_cell (by omega)
  case frame =>
    intro i f hf
    rw [List.getElem?_map, Option.map_eq_some_iff] at hf
    obtain ⟨j, hj, rfl⟩ := hf
    obtain ⟨-, rfl⟩ := List.getElem?_eq_some_iff.mp hj
    rw [List.getElem_range]
  case covered =>
    intro j hj
    by_cases hlast : j < stride * n
    · refine ⟨j / stride, _, hget _ ?_, Nat.mul_div_le j stride, ?_⟩
      · exact (Nat.div_lt_of_lt_mul hlast).le
      · have := Nat.lt_mul_div_succ j hstride
        rw [Nat.mul_add, Nat.mul_one] at this
        omega
    · exact ⟨n, _, hget n le_rfl, by omega, by omega⟩

/-- Mode 0 as if the text had been padded before. -/
def paddedCells (text : Text) : Text := ljust (psFrameWidth * max 1 (cellCount text)) text

theorem cell_ljust_of_le {width : ℕ} (h : start + psFrameWidth ≤ text.length) :
    cell (ljust width text) start = cell text start := by
  simp only [cell, ljust]
  rw [List.drop_append_of_le_length (by omega), List.take_append_of_le_length]
  rw [List.length_drop]
  omega

/-- The last cell is padded. -/
theorem ljust_cell (hstart : start ≤ text.length) (hlength : text.length ≤ start + psFrameWidth) :
    ljust psFrameWidth (cell text start) = cell (ljust (start + psFrameWidth) text) start := by
  have hcell : cell text start = text.drop start :=
    List.take_of_length_le (by rw [List.length_drop]; omega)
  have hrest : start + psFrameWidth - text.length = psFrameWidth - (text.drop start).length := by
    rw [List.length_drop]
    omega
  rw [hcell, cell, ljust, ljust, hrest, List.drop_append_of_le_length hstart]
  refine (List.take_of_length_le ?_).symm
  rw [List.length_append, List.length_replicate, List.length_drop]
  omega

theorem fixedChunks_eq (text : Text) :
    fixedChunks text = (List.range (max 1 (cellCount text))).map fun i =>
      cell (paddedCells text) (psFrameWidth * i) := by
  by_cases hempty : text = []
  · subst hempty
    rfl
  have hpos : 0 < text.length := List.length_pos_iff.mpr hempty
  obtain ⟨n, hn⟩ : ∃ n, cellCount text = n + 1 := by
    refine ⟨cellCount text - 1, ?_⟩
    simp only [cellCount, psFrameWidth]
    omega
  have hlower : psFrameWidth * n < text.length := by
    simp only [cellCount, psFrameWidth] at hn ⊢
    omega
  have hupper : text.length ≤ psFrameWidth * n + psFrameWidth := by
    simp only [cellCount, psFrameWidth] at hn ⊢
    omega
  have hpadded : paddedCells text = ljust (psFrameWidth * n + psFrameWidth) text := by
    rw [paddedCells, hn, max_eq_right (Nat.le_add_left 1 n), Nat.mul_succ]
  rw [fixedChunks, if_neg hempty, hn, max_eq_right (Nat.le_add_left 1 n), List.range_succ,
    List.map_append, List.map_append, List.map_singleton, List.modifyLast_concat, List.map_singleton,
    hpadded, ljust_cell hlower.le hupper]
  congr 1
  refine List.map_congr_left fun i hi => (cell_ljust_of_le ?_).symm
  have hlt := List.mem_range.mp hi
  simp only [psFrameWidth] at hlower ⊢
  omega

theorem length_paddedCells (text : Text) :
    (paddedCells text).length = psFrameWidth * max 1 (cellCount text) := by
  refine Text.length_ljust ?_
  simp only [cellCount, psFrameWidth]
  omega

theorem fixedChunks_covers (text : Text) :
    Covers psFrameWidth (paddedCells text) (fixedChunks text) := by
  obtain ⟨n, hn⟩ : ∃ n, max 1 (cellCount text) = n + 1 := ⟨max 1 (cellCount text) - 1, by omega⟩
  rw [fixedChunks_eq, hn]
  refine covers_range (by decide) le_rfl ?_
  rw [length_paddedCells, hn, Nat.mul_succ]

theorem slidingWindow_covers (text : Text) :
    Covers 1 (ljust psFrameWidth text) (slidingWindow text) := by
  have hwidth : psFrameWidth = 8 := rfl
  unfold slidingWindow
  split_ifs with hshort
  · have hlength := Text.length_ljust hshort
    have hcovers := covers_range (n := 0) Nat.one_pos (by decide) hlength
    simpa [cell, List.take_of_length_le hlength.le] using hcovers
  · rw [Text.ljust_of_le (by omega)]
    obtain ⟨n, hn⟩ := Nat.exists_eq_add_of_le (Nat.le_of_not_le hshort)
    have hcovers := covers_range (n := n) Nat.one_pos (by decide) (by rw [hn]; omega)
    simpa [hn] using hcovers

/-- Mode 3 scrolls the text into a blank display and out of it again. -/
def paddedScroll (text : Text) : Text :=
  if text = [] then blankFrame else blankFrame ++ text ++ blankFrame

theorem scrollWithBlank_covers (text : Text) :
    Covers 1 (paddedScroll text) (scrollWithBlank text) := by
  unfold paddedScroll scrollWithBlank
  split_ifs with hempty
  · have hcovers := slidingWindow_covers blankFrame
    exact hcovers
  · have hcovers := slidingWindow_covers (blankFrame ++ text ++ blankFrame)
    rwa [Text.ljust_of_le] at hcovers
    simp [blankFrame]

/-! ## Words in cells -/

/-- What a cell, or the cells of one long word, are made of. -/
inductive Block where
  | line (words : List Text)
  | long (word : Text)

namespace Block

def words : Block → List Text
  | line ws => ws
  | long word => [word]

def frames : Block → List Text
  | line ws => [ljust psFrameWidth (unwords ws)]
  | long word => fixedChunks word

/-- Short words that fit in one cell, or a word that does not. -/
def Valid : Block → Prop
  | line ws => ws ≠ [] ∧ (∀ w ∈ ws, IsWord w ∧ w.length ≤ psFrameWidth) ∧
      (unwords ws).length ≤ psFrameWidth
  | long word => IsWord word ∧ psFrameWidth < word.length

/-- A line has no room for the first word of the next one. -/
def Full : Block → Block → Prop
  | line ws, line (next :: _) => psFrameWidth < (unwords ws ++ space :: next).length
  | _, _ => True

/-- Splitting the frames gives the words back, a long word in chunks. -/
def Splits : Block → Prop
  | line ws => (line ws).frames.map Text.words = [ws]
  | long word => ∃ chunks : List Text,
      (long word).frames.map Text.words = chunks.map (fun chunk => [chunk]) ∧ chunks.flatten = word

end Block

/-- The current line, unless it is empty. -/
def close (ws : List Text) : List Block := if ws = [] then [] else [.line ws]

/-- A greedy layout: the blocks of the words that are left, with `ws` on the current line. -/
def layout : List Text → List Text → List Block
  | [], ws => close ws
  | word :: words, ws =>
    if psFrameWidth < word.length then close ws ++ .long word :: layout words []
    else if (unwords (ws ++ [word])).length ≤ psFrameWidth then layout words (ws ++ [word])
    else .line ws :: layout words [word]

/-- The words of the current line. -/
structure Open (ws : List Text) : Prop where
  words : ∀ w ∈ ws, IsWord w ∧ w.length ≤ psFrameWidth
  length : (unwords ws).length ≤ psFrameWidth

variable {words ws : List Text} {word : Text}

theorem open_nil : Open [] := by
  constructor
  · simp
  · exact Nat.zero_le _

theorem Open.unwords_eq_nil (h : Open ws) : unwords ws = [] ↔ ws = [] := by
  constructor
  · intro hnil
    by_contra hne
    exact Text.unwords_ne_nil hne (fun w hw => (h.words w hw).1) hnil
  · rintro rfl
    rfl

theorem Open.append (h : Open ws) (hword : IsWord word) (hshort : ¬psFrameWidth < word.length)
    (hfits : (unwords (ws ++ [word])).length ≤ psFrameWidth) : Open (ws ++ [word]) := by
  refine ⟨fun w hw => ?_, hfits⟩
  rcases List.mem_append.mp hw with hw | hw
  · exact h.words w hw
  · rw [List.mem_singleton.mp hw]
    exact ⟨hword, Nat.le_of_not_lt hshort⟩

theorem open_singleton (hword : IsWord word) (hshort : ¬psFrameWidth < word.length) :
    Open [word] := by
  refine open_nil.append hword hshort ?_
  simpa using hshort

theorem Open.valid_close (h : Open ws) : ∀ block ∈ close ws, block.Valid := by
  unfold close
  split_ifs with hws
  · simp
  · rw [List.forall_mem_singleton]
    exact ⟨hws, h.words, h.length⟩

theorem Open.flush_eq (h : Open ws) : flush (unwords ws) = (close ws).flatMap Block.frames := by
  unfold flush close
  simp only [h.unwords_eq_nil]
  split_ifs
  · rfl
  · simp [Block.frames]

/-- What the loop tries to accumulate. -/
theorem Open.candidate_eq (h : Open ws) (word : Text) :
    (if unwords ws = [] then word else unwords ws ++ space :: word) = unwords (ws ++ [word]) := by
  by_cases hws : ws = []
  · simp [hws, unwords]
  · rw [if_neg (mt h.unwords_eq_nil.mp hws), Text.unwords_append_singleton hws]

/-- A line with no room for one more word is not empty. -/
theorem ne_nil_of_full (hshort : ¬psFrameWidth < word.length)
    (hfull : ¬(unwords (ws ++ [word])).length ≤ psFrameWidth) : ws ≠ [] := by
  rintro rfl
  exact hfull (by simpa using hshort)

/-- The loop lays the words out. -/
theorem wrapWords_eq (hwords : ∀ w ∈ words, IsWord w) (hopen : Open ws) :
    wrapWords words (unwords ws) = (layout words ws).flatMap Block.frames := by
  induction words generalizing ws with
  | nil => exact hopen.flush_eq
  | cons word words ih =>
    obtain ⟨hword, hrest⟩ := List.forall_mem_cons.mp hwords
    unfold wrapWords layout
    dsimp only
    rw [hopen.candidate_eq]
    split_ifs with hlong hfits
    · rw [List.flatMap_append, List.flatMap_cons, ← hopen.flush_eq, ← ih hrest open_nil,
        List.append_assoc]
      rfl
    · exact ih hrest (hopen.append hword hlong hfits)
    · rw [List.flatMap_cons, ← ih hrest (open_singleton hword hlong), Text.unwords_singleton]
      rfl

theorem close_words (ws : List Text) : (close ws).flatMap Block.words = ws := by
  unfold close
  split_ifs with hws
  · simp [hws]
  · simp [Block.words]

theorem layout_words (words ws : List Text) :
    (layout words ws).flatMap Block.words = ws ++ words := by
  induction words generalizing ws with
  | nil => simp [layout, close_words]
  | cons word words ih =>
    unfold layout
    split_ifs
    · simp [ih, close_words, Block.words]
    · simp [ih]
    · simp [ih, Block.words]

theorem layout_valid (hwords : ∀ w ∈ words, IsWord w) (hopen : Open ws) :
    ∀ block ∈ layout words ws, block.Valid := by
  induction words generalizing ws with
  | nil => exact hopen.valid_close
  | cons word words ih =>
    obtain ⟨hword, hrest⟩ := List.forall_mem_cons.mp hwords
    unfold layout
    split_ifs with hlong hfits
    · have hblock : (Block.long word).Valid := ⟨hword, hlong⟩
      exact List.forall_mem_append.mpr
        ⟨hopen.valid_close, List.forall_mem_cons.mpr ⟨hblock, ih hrest open_nil⟩⟩
    · exact ih hrest (hopen.append hword hlong hfits)
    · have hblock : (Block.line ws).Valid :=
        ⟨ne_nil_of_full hlong hfits, hopen.words, hopen.length⟩
      exact List.forall_mem_cons.mpr ⟨hblock, ih hrest (open_singleton hword hlong)⟩

/-- A layout begins with the words that are on the current line. -/
theorem layout_head (words : List Text) {ws : List Text} (hne : ws ≠ []) :
    ∃ more rest, layout words ws = .line (ws ++ more) :: rest := by
  induction words generalizing ws with
  | nil => exact ⟨[], [], by simp [layout, close, hne]⟩
  | cons word words ih =>
    unfold layout
    split_ifs
    · exact ⟨[], .long word :: layout words [], by simp [close, hne]⟩
    · obtain ⟨more, rest, h⟩ := ih (List.append_ne_nil_of_right_ne_nil ws (List.cons_ne_nil word []))
      exact ⟨word :: more, rest, by simp [h]⟩
    · exact ⟨[], layout words [word], by simp⟩

/-- No line has room for the first word of the next one. -/
theorem layout_full (words ws : List Text) : (layout words ws).IsChain Block.Full := by
  induction words generalizing ws with
  | nil =>
    unfold layout close
    split_ifs <;> simp
  | cons word words ih =>
    have hlong (ws : List Text) : (close ws ++ .long word :: layout words []).IsChain Block.Full := by
      have hrest : (.long word :: layout words []).IsChain Block.Full :=
        List.isChain_cons.mpr ⟨fun _ _ => trivial, ih []⟩
      unfold close
      split_ifs
      · exact hrest
      · exact List.isChain_cons.mpr ⟨fun b hb => by cases hb; trivial, hrest⟩
    unfold layout
    split_ifs with hword hfits
    · exact hlong ws
    · exact ih (ws ++ [word])
    · obtain ⟨more, rest, h⟩ := layout_head words (List.cons_ne_nil word [])
      have htail := ih [word]
      rw [h] at htail ⊢
      refine List.isChain_cons.mpr ⟨fun b hb => ?_, htail⟩
      have hne := ne_nil_of_full hword hfits
      rw [Text.unwords_append_singleton hne, Nat.not_le] at hfits
      cases hb
      exact hfits

/-! ## Splitting the frames again -/

theorem isWord_cell (hword : IsWord word) (hstart : start < word.length) :
    IsWord (cell word start) := by
  refine ⟨fun hnil => ?_, fun c hc => hword.solid c (List.mem_of_mem_drop (List.mem_of_mem_take hc))⟩
  have hlength := congrArg List.length hnil
  simp only [cell, psFrameWidth, List.length_take, List.length_drop, List.length_nil] at hlength
  omega

/-- The chunks of a text, one after the other. -/
theorem flatten_cells (text : Text) (n : ℕ) :
    ((List.range n).map fun i => cell text (psFrameWidth * i)).flatten =
      text.take (psFrameWidth * n) := by
  induction n with
  | zero => simp
  | succ n ih =>
    rw [List.range_succ, List.map_append, List.flatten_append, ih, Nat.mul_succ, List.take_add]
    simp [cell]

theorem long_splits (hword : IsWord word) : (Block.long word).Splits := by
  have hcount : 0 < cellCount word := by
    have hpos := List.length_pos_iff.mpr hword.ne_nil
    simp only [cellCount, psFrameWidth]
    omega
  refine ⟨(List.range (cellCount word)).map fun i => cell word (psFrameWidth * i), ?_, ?_⟩
  · obtain ⟨n, hn⟩ := Nat.exists_eq_succ_of_ne_zero hcount.ne'
    have hcell (i : ℕ) (hi : i ≤ n) : IsWord (cell word (psFrameWidth * i)) := by
      refine isWord_cell hword ?_
      simp only [cellCount, psFrameWidth] at hn ⊢
      omega
    have hsplit (i : ℕ) (hi : i ≤ n) : (cell word (psFrameWidth * i)).words =
        [cell word (psFrameWidth * i)] := by
      simpa [ljust] using Text.words_ljust_unwords 0 [cell word (psFrameWidth * i)]
        (by simpa using hcell i hi)
    change (fixedChunks word).map Text.words = _
    rw [fixedChunks, if_neg hword.ne_nil, hn, List.range_succ, List.map_append, List.map_singleton,
      List.modifyLast_concat, List.map_append, List.map_append, List.map_map, List.map_map]
    congr 1
    · exact List.map_congr_left fun i hi => hsplit i (List.mem_range.mp hi).le
    · have hlast := Text.words_ljust_unwords psFrameWidth [cell word (psFrameWidth * n)]
        (by simpa using hcell n le_rfl)
      simpa using hlast
  · rw [flatten_cells]
    refine List.take_of_length_le ?_
    simp only [cellCount, psFrameWidth]
    omega

theorem splits_of_valid {block : Block} (h : block.Valid) : block.Splits := by
  cases block with
  | line ws =>
    have hwords : ∀ w ∈ ws, IsWord w := fun w hw => (h.2.1 w hw).1
    simp [Block.Splits, Block.frames, Text.words_ljust_unwords psFrameWidth ws hwords]
  | long word => exact long_splits h.1

theorem width_of_valid {block : Block} (h : block.Valid) :
    ∀ f ∈ block.frames, f.length = psFrameWidth := by
  cases block with
  | line ws =>
    intro f hf
    rw [List.mem_singleton.mp hf]
    exact Text.length_ljust h.2.2
  | long word => exact (fixedChunks_covers word).width

/-- What Mode 2 shows: blocks of short words, as many as fit, and the chunks of long ones. -/
structure WordAligned (text : Text) (frames : List Text) : Prop where
  width : ∀ f ∈ frames, f.length = psFrameWidth
  blank : text.words = [] → frames = [blankFrame]
  blocks : text.words ≠ [] → ∃ blocks : List Block, blocks.flatMap Block.frames = frames ∧
    blocks.flatMap Block.words = text.words ∧ (∀ b ∈ blocks, b.Valid ∧ b.Splits) ∧
    blocks.IsChain Block.Full

theorem wordAligned_wordAligned (text : Text) : WordAligned text (wordAligned text) := by
  by_cases hwords : text.words = []
  · have hblank : wordAligned text = [blankFrame] := if_pos hwords
    refine ⟨fun f hf => ?_, fun _ => hblank, fun hne => absurd hwords hne⟩
    rw [hblank, List.mem_singleton] at hf
    rw [hf]
    rfl
  · have hword : ∀ w ∈ text.words, IsWord w := fun w hw => Text.isWord_of_mem_words hw
    have hframes : wordAligned text = (layout text.words []).flatMap Block.frames :=
      (if_neg hwords).trans (wrapWords_eq hword open_nil)
    have hvalid := layout_valid hword open_nil
    refine ⟨fun f hf => ?_, fun hnil => absurd hnil hwords, fun _ => ⟨layout text.words [],
      hframes.symm, layout_words .., fun b hb => ⟨hvalid b hb, splits_of_valid (hvalid b hb)⟩,
      layout_full ..⟩⟩
    rw [hframes] at hf
    obtain ⟨block, hblock, hf⟩ := List.mem_flatMap.mp hf
    exact width_of_valid (hvalid block hblock) f hf

/-- Every mode shows the whole of the normalized text. -/
theorem ps_frames_show_text (nfc : Text → Text) (text : Text) :
    (∃ frames, generatePsFrames nfc text 0 = .ok frames ∧
      Covers psFrameWidth (paddedCells (normalizeText nfc text)) frames) ∧
    (∃ frames, generatePsFrames nfc text 1 = .ok frames ∧
      Covers 1 (ljust psFrameWidth (normalizeText nfc text)) frames) ∧
    (∃ frames, generatePsFrames nfc text 2 = .ok frames ∧
      WordAligned (normalizeText nfc text) frames) ∧
    ∃ frames, generatePsFrames nfc text 3 = .ok frames ∧
      Covers 1 (paddedScroll (normalizeText nfc text)) frames :=
  ⟨⟨_, rfl, fixedChunks_covers _⟩, ⟨_, rfl, slidingWindow_covers _⟩,
    ⟨_, rfl, wordAligned_wordAligned _⟩, _, rfl, scrollWithBlank_covers _⟩

end IsadoraAir.Rbds
