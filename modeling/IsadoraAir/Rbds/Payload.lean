import IsadoraAir.Rbds.Elements

/-!
# Payloads

The elements of a full payload, the elements that are repeated for RT+ between
two of them, and the commands of the ASCII dialect. Every element of a payload
is framed on its own.
-/

namespace IsadoraAir.Rbds

variable {includeLongPs toggle : Bool} {config : Config} {payload : List Element}
  {content : Option Text} {last : Option ℤ} {shown : Shown} {nfc : Text → Text}

/-! ## Configuration -/

inductive Protocol where
  | uecp
  | ascii
  deriving DecidableEq

/-- A field of hexadecimal digits, and what `int(field, 16)` makes of it. -/
structure HexField where
  text : Text
  value : Except PyError ℤ

/-- The fields of `RBDSConfig` that the payloads and the send gate read. -/
structure Config where
  protocol : Protocol
  piCode : HexField
  ecc : HexField
  languageCode : Option ℤ
  longPsManaged : Bool
  longPsEnabled : Bool
  longPsSource : Text
  ta : Bool
  tp : Bool
  diCompressed : Bool
  diArtificialHead : Bool
  diStereo : Bool
  ms : Bool
  useRtPlus : Bool
  sendCt : Bool

/-- What is shown besides the RadioText, as it is resolved for one tick. -/
structure Shown where
  ps : Text
  rt : RtContent
  pty : ℤ
  ptyn : Text
  dynamicPty : Bool

/-! ## The UECP payload -/

def HexField.element (field : HexField) (build : ℤ → Except PyError Element) :
    Except PyError (List Element) :=
  if field.text = [] then return [] else return [← build (← field.value)]

/-- A language that was sent is cleared with code 0 when it has been disabled. -/
def languageElements (languageCode lastSentLanguageCode : Option ℤ) :
    Except PyError (List Element) :=
  match languageCode, lastSentLanguageCode with
  | some code, _ => return [← mecLanguageCode code]
  | none, some _ => return [← mecLanguageCode 0]
  | none, none => return []

/-- The RT+ elements of a full payload. -/
def rtPlusElements (useRtPlus : Bool) (rt : RtContent) : Except PyError (List Element) :=
  if useRtPlus = false then return []
  else match rt.artist, rt.title with
    | some artist, some title =>
      if artist ≠ [] ∧ title ≠ [] ∧ artist.length ≤ 32 then
        return [mecRtPlusOdaReg, ← mecRtPlusTags artist.length title.length]
      else return [mecRtPlusOdaReg]
    | none, none =>
      if rt.text ≠ [] then return [mecRtPlusOdaReg, ← mecRtPlusTagsGeneric rt.text.length]
      else return [mecRtPlusOdaReg]
    | _, _ => return [mecRtPlusOdaReg]

/-- `_send_rt_plus_only`; nothing is sent when there is no tag to repeat. -/
def rtPlusOnly (rt : RtContent) : Except PyError (List Element) :=
  match rt.artist, rt.title with
  | some artist, some title =>
    if artist ≠ [] ∧ title ≠ [] ∧ artist.length ≤ 32 then
      return [mecRtPlusOdaReg, ← mecRtPlusTags artist.length title.length]
    else return []
  | none, none =>
    if rt.text ≠ [] then return [mecRtPlusOdaReg, ← mecRtPlusTagsGeneric rt.text.length]
    else return []
  | _, _ => return []

/-- `_build_uecp_payload`, before each element is framed. -/
def buildUecpPayload (nfc : Text → Text) (config : Config) (shown : Shown)
    (lastSentLanguageCode : Option ℤ) (rtAbToggle includeLongPs : Bool)
    (longPsContent : Option Text) : Except PyError (List Element) := do
  let pi ← config.piCode.element fun code => return mecPi code
  let ecc ← config.ecc.element mecEcc
  let language ← languageElements config.languageCode lastSentLanguageCode
  let longPs := if includeLongPs = true then [mecLongPs longPsContent] else []
  let rtPlus ← rtPlusElements config.useRtPlus shown.rt
  return pi ++ ecc ++ language ++ [mecPs shown.ps] ++ longPs ++
    [mecTaTp config.ta config.tp,
      mecDi shown.dynamicPty config.diCompressed config.diArtificialHead config.diStereo,
      mecMs config.ms, mecPty shown.pty, mecPtyn (normalizeText nfc shown.ptyn),
      mecRt shown.rt.text rtAbToggle] ++ rtPlus

/-! ## The ASCII payload -/

/-- `str(n)` -/
def decimal (n : ℤ) : Text := codePoints (toString n)

/-- `build_rt_plus_tag` -/
def buildRtPlusTag (contentType start length : ℕ) : Text :=
  decimal contentType ++ codePoints "," ++ decimal start ++ codePoints "," ++ decimal (length - 1 : ℕ)

/-- The commands of `build_ascii_commands`, for `_build_ascii_payload`. -/
def buildAsciiCommands (config : Config) (shown : Shown) : List Text :=
  let tags :=
    match shown.rt.artist, shown.rt.title with
    | some artist, some title =>
      if config.useRtPlus = true ∧ artist ≠ [] ∧ title ≠ [] then
        [codePoints "RT+=" ++ buildRtPlusTag 4 0 artist.length ++ codePoints "," ++
          buildRtPlusTag 1 (artist.length + rtPlusSeparator.length) title.length]
      else []
    | _, _ => []
  (if shown.ps = [] then [] else [codePoints "PS=" ++ shown.ps.take 8]) ++
    (if shown.rt.text = [] then [] else [codePoints "RT=" ++ shown.rt.text.take 64]) ++ tags ++
    (if config.piCode.text = [] then [] else [codePoints "PI=" ++ config.piCode.text]) ++
    [codePoints "PTY=" ++ decimal shown.pty, codePoints "MS=" ++ decimal (flag 1 config.ms),
      codePoints "DI=" ++ decimal (flag 0x01 shown.dynamicPty ||| flag 0x02 config.diCompressed |||
        flag 0x04 config.diArtificialHead ||| flag 0x08 config.diStereo : ℕ)]

/-! ## Commands of a payload -/

section Commands

variable {command other : Byte} {elements : List Element} {e : Element}

theorem withCommand_append (command : Byte) (xs ys : List Element) :
    withCommand command (xs ++ ys) = withCommand command xs ++ withCommand command ys :=
  List.filter_append ..

/-- An element of the command, short enough for a frame. -/
structure IsElement (command : Byte) (e : Element) : Prop where
  head : e.head? = some command
  fits : e.length ≤ 255

theorem withCommand_self (h : ∀ e ∈ elements, IsElement command e) :
    withCommand command elements = elements :=
  List.filter_eq_self.2 fun e he => decide_eq_true (h e he).head

theorem withCommand_other (h : ∀ e ∈ elements, IsElement other e) (hne : other ≠ command) :
    withCommand command elements = [] := by
  refine List.filter_eq_nil_iff.2 fun e he => ?_
  rw [(h e he).head, decide_eq_true_eq, Option.some.injEq]
  exact hne

theorem isElement_packBytes {values : List ℕ} {n : ℕ} (h : packBytes (n :: values) = .ok e)
    (hvalues : (n :: values).length ≤ 255) : IsElement (UInt8.ofNat n) e := by
  rw [packBytes] at h
  split_ifs at h
  cases h
  exact ⟨rfl, (List.length_map _).trans_le hvalues⟩

theorem isElement_mecSlowLabelling {variant data : ℤ} (h : mecSlowLabelling variant data = .ok e) :
    IsElement 0x1A e := by
  simp only [mecSlowLabelling, bind_eq_ok] at h
  obtain ⟨-, -, -, -, h⟩ := h
  exact isElement_packBytes h (by simp)

theorem isElement_mecEcc {ecc : ℤ} (h : mecEcc ecc = .ok e) : IsElement 0x1A e := by
  simp only [mecEcc, bind_eq_ok] at h
  obtain ⟨-, -, h⟩ := h
  exact isElement_mecSlowLabelling h

theorem isElement_mecLanguageCode {code : ℤ} (h : mecLanguageCode code = .ok e) :
    IsElement 0x1A e := by
  simp only [mecLanguageCode, bind_eq_ok] at h
  obtain ⟨-, -, h⟩ := h
  exact isElement_mecSlowLabelling h

theorem isElement_mecLongPs (text : Option Text) : IsElement 0x21 (mecLongPs text) := by
  rw [mecLongPs]
  split_ifs
  · exact ⟨rfl, by decide⟩
  · refine ⟨rfl, ?_⟩
    simp only [List.length_append, length_encodeRdsG0, List.length_take, List.length_cons,
      List.length_nil]
    omega

theorem isElement_mecRtPlusTags {artistLen titleLen : ℕ}
    (h : mecRtPlusTags artistLen titleLen = .ok e) : IsElement 0x24 e := by
  simp only [mecRtPlusTags, bind_eq_ok] at h
  obtain ⟨-, -, -, -, -, -, h⟩ := h
  exact isElement_packBytes h (by simp)

theorem isElement_mecRtPlusTagsGeneric {length : ℕ} (h : mecRtPlusTagsGeneric length = .ok e) :
    IsElement 0x24 e := by
  simp only [mecRtPlusTagsGeneric, bind_eq_ok] at h
  obtain ⟨-, -, h⟩ := h
  exact isElement_packBytes h (by simp)

theorem isElement_mecRtPlusOdaReg : IsElement 0x24 mecRtPlusOdaReg := ⟨rfl, by decide⟩

theorem isElement_of_element {field : HexField} {build : ℤ → Except PyError Element}
    (hbuild : ∀ n e, build n = .ok e → IsElement command e)
    (h : field.element build = .ok elements) : ∀ e ∈ elements, IsElement command e := by
  rw [HexField.element] at h
  split_ifs at h
  · cases h
    simp
  · simp only [bind_eq_ok] at h
    obtain ⟨n, -, built, hbuilt, h⟩ := h
    cases h
    simpa using hbuild n built hbuilt

theorem isElement_of_languageElements {code : Option ℤ}
    (h : languageElements code last = .ok elements) : ∀ e ∈ elements, IsElement 0x1A e := by
  unfold languageElements at h
  split at h
  · obtain ⟨built, hbuilt, h⟩ := bind_eq_ok.1 h
    cases h
    simpa using isElement_mecLanguageCode hbuilt
  · obtain ⟨built, hbuilt, h⟩ := bind_eq_ok.1 h
    cases h
    simpa using isElement_mecLanguageCode hbuilt
  · cases h
    simp

theorem isElement_of_rtPlusElements {useRtPlus : Bool} {rt : RtContent}
    (h : rtPlusElements useRtPlus rt = .ok elements) : ∀ e ∈ elements, IsElement 0x24 e := by
  have hreg := isElement_mecRtPlusOdaReg
  unfold rtPlusElements at h
  by_cases hoff : useRtPlus = false
  · rw [if_pos hoff] at h
    cases h
    simp
  · rw [if_neg hoff] at h
    split at h
    · split_ifs at h
      · obtain ⟨built, hbuilt, h⟩ := bind_eq_ok.1 h
        cases h
        simpa [hreg] using isElement_mecRtPlusTags hbuilt
      · cases h
        simpa using hreg
    · split_ifs at h
      · obtain ⟨built, hbuilt, h⟩ := bind_eq_ok.1 h
        cases h
        simpa [hreg] using isElement_mecRtPlusTagsGeneric hbuilt
      · cases h
        simpa using hreg
    · cases h
      simpa using hreg

/-- What a payload has of the commands that this development is about. -/
structure Carries (config : Config) (shown : Shown) (lastSentLanguageCode : Option ℤ)
    (rtAbToggle includeLongPs : Bool) (longPsContent : Option Text) (payload : List Element) :
    Prop where
  radioText : withCommand 0x0A payload = [mecRt shown.rt.text rtAbToggle]
  longPs : withCommand 0x21 payload = if includeLongPs = true then [mecLongPs longPsContent] else []
  labelling : ∃ ecc language, config.ecc.element mecEcc = .ok ecc ∧
    languageElements config.languageCode lastSentLanguageCode = .ok language ∧
      withCommand 0x1A payload = ecc ++ language
  rtPlus : rtPlusElements config.useRtPlus shown.rt = .ok (withCommand 0x24 payload)

/-- What a payload carries, its one element with the name, and that every element fits a frame. -/
theorem payload_of_buildUecpPayload


    (h : buildUecpPayload nfc config shown last toggle includeLongPs content = .ok payload) :
    Carries config shown last toggle includeLongPs content payload ∧
      withCommand 0x02 payload = [mecPs shown.ps] ∧ ∀ e ∈ payload, e.length ≤ 255 := by
  simp only [buildUecpPayload, bind_eq_ok] at h
  obtain ⟨pi, hpi, ecc, hecc, language, hlanguage, rtPlus, hrtPlus, h⟩ := h
  cases h
  have hpi : ∀ e ∈ pi, IsElement 0x01 e :=
    isElement_of_element (fun _ _ hbuilt => by cases hbuilt; exact ⟨rfl, by simp [mecPi]⟩) hpi
  have hecc' : ∀ e ∈ ecc, IsElement 0x1A e :=
    isElement_of_element (fun _ _ => isElement_mecEcc) hecc
  have hlanguage' := isElement_of_languageElements hlanguage
  have hrtPlus' := isElement_of_rtPlusElements hrtPlus
  have hlongPs : ∀ e ∈ (if includeLongPs = true then [mecLongPs content] else []),
      IsElement 0x21 e := by
    split_ifs
    · simpa using isElement_mecLongPs content
    · simp
  refine ⟨⟨?radioText, ?longPs, ?labelling, ?rtPlus⟩, ?name, ?fits⟩
  case radioText =>
    simp (disch := decide) only [withCommand_append, withCommand_other hpi, withCommand_other hecc',
      withCommand_other hlanguage', withCommand_other hlongPs, withCommand_other hrtPlus']
    rfl
  case longPs =>
    simp (disch := decide) only [withCommand_append, withCommand_other hpi, withCommand_other hecc',
      withCommand_other hlanguage', withCommand_self hlongPs, withCommand_other hrtPlus']
    simp [withCommand, mecPs, mecTaTp, mecDi, mecMs, mecPty, mecPtyn, mecRt]
  case labelling =>
    refine ⟨ecc, language, hecc, hlanguage, ?_⟩
    simp (disch := decide) only [withCommand_append, withCommand_other hpi, withCommand_self hecc',
      withCommand_self hlanguage', withCommand_other hlongPs, withCommand_other hrtPlus']
    simp [withCommand, mecPs, mecTaTp, mecDi, mecMs, mecPty, mecPtyn, mecRt]
  case rtPlus =>
    simp (disch := decide) only [withCommand_append, withCommand_other hpi, withCommand_other hecc',
      withCommand_other hlanguage', withCommand_other hlongPs, withCommand_self hrtPlus']
    exact hrtPlus
  case name =>
    simp (disch := decide) only [withCommand_append, withCommand_other hpi, withCommand_other hecc',
      withCommand_other hlanguage', withCommand_other hlongPs, withCommand_other hrtPlus']
    rfl
  case fits =>
    have hfits {command : Byte} {group : List Element} (h : ∀ e ∈ group, IsElement command e) :
        ∀ e ∈ group, e.length ≤ 255 := fun e he => (h e he).fits
    have hname (text : Text) : (Text.ljust 8 (text.take 8)).length ≤ 8 := by
      simp only [Text.ljust, List.length_append, List.length_take, List.length_replicate]
      omega
    have hps := hname shown.ps
    have hptyn := hname (normalizeText nfc shown.ptyn)
    have hrt : (shown.rt.text.take 64).length ≤ 64 := List.length_take_le ..
    simp only [List.forall_mem_append]
    refine ⟨⟨⟨⟨⟨⟨hfits hpi, hfits hecc'⟩, hfits hlanguage'⟩, ?_⟩, hfits hlongPs⟩, ?_⟩,
      hfits hrtPlus'⟩
    · simp [mecPs]
      omega
    · simp [mecTaTp, mecDi, mecMs, mecPty, mecPtyn, mecRt]
      omega

theorem carries_of_buildUecpPayload


    (h : buildUecpPayload nfc config shown last toggle includeLongPs content = .ok payload) :
    Carries config shown last toggle includeLongPs content payload :=
  (payload_of_buildUecpPayload h).1

end Commands

end IsadoraAir.Rbds
