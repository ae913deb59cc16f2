import IsadoraAir.Rbds.DynamicPs
import IsadoraAir.Rbds.Uecp
import IsadoraAir.Rbds.Rotation

/-!
# Message elements and RadioText

The elements of a payload, and the text that one of them carries.
-/

/-!
## Message elements

`rbds/services/uecp.py`: the message elements that a payload is made of, byte by
byte. Each begins with its command code; text is written in the G0 character
set, one byte for each character.
-/

namespace IsadoraAir.Rbds

open Text (ljust)

/-- A message element: the command code and its data. -/
abbrev Element := List Byte

/-! ### The G0 character set -/

/-- `RDS_G0_DECODE` from 0x20 on, sixteen codes a row. -/
def rdsG0Rows : List String :=
  [" !\"#¤%&'()*+,-./",
    "0123456789:;<=>?",
    "@ABCDEFGHIJKLMNO",
    "PQRSTUVWXYZ[\\]―_",
    "‖abcdefghijklmno",
    "pqrstuvwxyz\x7b|\x7d¯ ",
    "áàéèíìóòúùÑÇŞβ¡Ĳ",
    "âäêëîïôöûüñçşǧıĳ",
    "ªα©‰Ǧěňőπ€£$←↑→↓",
    "º¹²³±İńűµ¿÷°¼½¾§",
    "ÁÀÉÈÍÌÓÒÚÙŘČŠŽÐĿ",
    "ÂÄÊËÎÏÔÖÛÜřčšžđŀ",
    "ÃÅÆŒŷÝÕØÞŊŔĆŚŹŦð",
    "ãåæœŵýõøþŋŕćśźŧ "]

def rdsG0 : Text := rdsG0Rows.flatMap codePoints

/-- `_RDS_G0_ENCODE.get(ch, ord(" "))`; the first code of a character wins. -/
def encodeG0Char (c : CodePoint) : Byte :=
  if c ∈ rdsG0 then UInt8.ofNat (0x20 + rdsG0.idxOf c) else 0x20

/-- `encode_rds_g0` -/
def encodeRdsG0 (text : Text) : List Byte := text.map encodeG0Char

@[simp] theorem length_encodeRdsG0 (text : Text) : (encodeRdsG0 text).length = text.length :=
  List.length_map ..

/-- The character that a receiver shows for a byte. -/
def decodeG0Byte (b : Byte) : CodePoint := rdsG0.getD (b.toNat - 0x20) (.scalar ' ')

/-- The character itself when the set has it, else a space. -/
def shownChar (c : CodePoint) : CodePoint := if c ∈ rdsG0 then c else .scalar ' '

theorem decodeG0Byte_encodeG0Char (c : CodePoint) : decodeG0Byte (encodeG0Char c) = shownChar c := by
  have hlength : rdsG0.length = 224 := by decide +kernel
  unfold shownChar encodeG0Char decodeG0Byte
  split_ifs with hc
  · have hidx : rdsG0.idxOf c < rdsG0.length := List.idxOf_lt_length_of_mem hc
    have hbyte : (UInt8.ofNat (0x20 + rdsG0.idxOf c)).toNat - 0x20 = rdsG0.idxOf c := by
      simp only [UInt8.toNat_ofNat']
      omega
    rw [hbyte, List.getD_eq_getElem _ _ hidx, List.getElem_idxOf]
  · decide +kernel
/-! ### Elements -/

/-- `bytes(values)` -/
def packBytes (values : List ℕ) : Except PyError (List Byte) :=
  if ∀ n ∈ values, n < 256 then .ok (values.map UInt8.ofNat) else .error .valueError

def flag (bit : ℕ) (set : Bool) : ℕ := if set then bit else 0

/-- `struct.pack(">H", pi_code & 0xFFFF)`; a mask of ones is a remainder. -/
def mecPi (piCode : ℤ) : Element :=
  let code := (piCode % 65536).toNat
  [0x01, 0, 0, UInt8.ofNat (code / 256), UInt8.ofNat code]

def mecSlowLabelling (variant data : ℤ) : Except PyError Element := do
  raiseIf (¬(0 ≤ variant ∧ variant ≤ 7)) .valueError
  raiseIf (¬(0 ≤ data ∧ data ≤ 0xFFF)) .valueError
  packBytes [0x1A, 0, ((variant.toNat &&& 0x7) <<< 4) ||| ((data.toNat >>> 8) &&& 0xF),
    data.toNat &&& 0xFF]

def mecEcc (ecc : ℤ) : Except PyError Element := do
  raiseIf (¬(0 ≤ ecc ∧ ecc ≤ 0xFF)) .valueError
  mecSlowLabelling 0 ecc

def mecLanguageCode (code : ℤ) : Except PyError Element := do
  raiseIf (¬(0 ≤ code ∧ code ≤ 0xFF)) .valueError
  mecSlowLabelling 3 code

def mecPtyn (text : Text) : Element := [0x3E, 0, 0] ++ encodeRdsG0 (ljust 8 (text.take 8))

def mecPs (text : Text) : Element := [0x02, 0, 0] ++ encodeRdsG0 (ljust 8 (text.take 8))

def mecTaTp (ta tp : Bool) : Element := [0x03, 0, 0, UInt8.ofNat (flag 0x01 ta ||| flag 0x02 tp)]

def mecDi (dynamicPty compressed artificialHead stereo : Bool) : Element :=
  [0x04, 0, 0, UInt8.ofNat (flag 0x01 stereo ||| flag 0x02 artificialHead ||| flag 0x04 compressed |||
    flag 0x08 dynamicPty)]

def mecMs (music : Bool) : Element := [0x05, 0, 0, UInt8.ofNat (flag 0x01 music)]

/-- A mask of ones is a remainder. -/
def mecPty (pty : ℤ) : Element := [0x07, 0, 0, UInt8.ofNat (pty % 32).toNat]

/-- Bit 0 of the flags tells the encoder to toggle A/B now. -/
def mecRt (text : Text) (abFlag : Bool) : Element :=
  [0x0A, 0, 0, UInt8.ofNat (1 + (text.take 64).length), UInt8.ofNat (flag 0x01 abFlag)] ++
    encodeRdsG0 (text.take 64)

/-- Without a text, or with an empty one, Long PS is disabled. -/
def mecLongPs (text : Option Text) : Element :=
  if text.getD [] = [] then [0x21, 0, 0, 0]
  else [0x21, 0, 0, UInt8.ofNat (1 + ((text.getD []).take 32).length)] ++
    encodeRdsG0 ((text.getD []).take 32) ++ [0]

def mecRtPlusOdaReg : Element := [0x24, 0x06, 0x16, 0x00, 0x00, 0x4B, 0xD7]

def mecRtPlusTags (artistLen titleLen : ℕ) : Except PyError Element := do
  raiseIf (artistLen < 1 ∨ titleLen < 1) .valueError
  raiseIf (32 < artistLen) .valueError
  let titleStart := artistLen + 3
  raiseIf (63 < titleStart) .valueError
  let titleLen := if 64 < titleLen then 64 else titleLen
  packBytes [0x24, 0x16, 0x08, (1 <<< 5) ||| ((titleStart >>> 1) &&& 0x1F),
    ((titleStart &&& 1) <<< 7) ||| (((titleLen - 1) &&& 0x3F) <<< 1), 0x20,
    (artistLen - 1) &&& 0x1F]

def mecRtPlusTagsGeneric (rtTextLen : ℕ) : Except PyError Element := do
  raiseIf (rtTextLen < 1) .valueError
  let len := min (rtTextLen - 1) 63
  packBytes [0x24, 0x16, 0x0B, 0x20, (len &&& 0x3F) <<< 1, 0x00, 0x00]

/-- `round(minutes / 30)`; a tie goes to the even number. -/
def halfHours (minutes : ℤ) : ℤ :=
  if minutes % 30 < 15 ∨ minutes % 30 = 15 ∧ minutes / 30 % 2 = 0 then minutes / 30
  else minutes / 30 + 1

/-- A reading of the clock, in UTC. -/
structure UtcTime where
  year : ℕ
  month : ℕ
  day : ℕ
  hour : ℕ
  minute : ℕ
  second : ℕ
  microsecond : ℕ

def mecCt (utc : UtcTime) (offsetMinutes : ℤ) : Except PyError Element :=
  packBytes [0x0D, utc.year % 100, utc.month, utc.day, utc.hour, utc.minute, utc.second,
    utc.microsecond / 10000,
    flag 0x20 (halfHours offsetMinutes < 0) ||| ((halfHours offsetMinutes).natAbs &&& 0x1F)]

def mecCtOnOff (enabled : Bool) : Element := [0x19, UInt8.ofNat (flag 0x01 enabled)]

/-! ### Which command -/

/-- The elements of a payload with this command code. -/
def withCommand (command : Byte) (elements : List Element) : List Element :=
  elements.filter fun e => e.head? = some command

end IsadoraAir.Rbds

/-!
## RadioText content

What the RadioText of a tick is, and which of its characters are the artist and
the title. With RT+ the two are joined by a fixed separator, so that their
places are known after the text has been cut.
-/

namespace IsadoraAir.Rbds

open Text (strip)

/-! ### Content -/

structure NowPlaying where
  title : Text
  artist : Text

/-- An active message, with its text as the content cache has it. -/
structure RotationMessage where
  text : Text
  rtPlusDelimiter : Text

/-- What `str.format` raises: a missing field, or anything else. -/
inductive FormatError where
  | missing
  | other (error : PyError)

/-- The RadioText, with its artist and its title when it is to be tagged as a song; both are empty
for a song that was cut too short. -/
structure RtContent where
  text : Text
  artist : Option Text
  title : Option Text
  deriving DecidableEq

/-- The part of the text before the first separator, and the part after it. -/
def partition (separator : Text) : Text → Option (Text × Text)
  | [] => none
  | c :: text =>
    if separator.isPrefixOf (c :: text) then some ([], (c :: text).drop separator.length)
    else (partition separator text).map fun parts => (c :: parts.1, parts.2)

def rtPlusSeparator : Text := codePoints " - "

/-- `_build_rt_plus_text` -/
def buildRtPlusText (artist title : Text) : RtContent :=
  let text := (artist ++ rtPlusSeparator ++ title).take 64
  let survivingArtist := text.take artist.length
  let survivingTitle := text.drop (artist.length + rtPlusSeparator.length)
  if survivingArtist = [] ∨ survivingTitle = [] then ⟨text, some [], some []⟩
  else ⟨text, some survivingArtist, some survivingTitle⟩

/-- What `_resolve_rt_content` reads: a text without parts, or an artist and a title. -/
inductive RtParts where
  | plain (text : Text)
  | pair (artist title : Text)
  deriving DecidableEq

/-- The first half of `_resolve_rt_content`. -/
def readRtParts (nfc : Text → Text) (nowPlaying : NowPlaying)
    (messages : String → Option RotationMessage) : Source → RtParts
  | .nowplaying => .pair (normalizeText nfc nowPlaying.artist) (normalizeText nfc nowPlaying.title)
  | .promo name =>
    match messages name with
    | none => .plain []
    | some message =>
      let rawText := normalizeText nfc message.text
      let delimiter := normalizeText nfc message.rtPlusDelimiter
      if delimiter = [] then .plain rawText
      else match partition delimiter rawText with
        | none => .plain rawText
        | some (artist, title) => .pair (strip artist) (strip title)

/-- `_resolve_rt_content`; `nowPlayingFormat` is the template applied to a title and an artist. -/
def resolveRtContent (nfc : Text → Text) (useRtPlus : Bool)
    (nowPlayingFormat : Text → Text → Except FormatError Text) (nowPlaying : NowPlaying)
    (messages : String → Option RotationMessage) (source : Source) : Except PyError RtContent :=
  match readRtParts nfc nowPlaying messages source with
  | .plain text => .ok ⟨text.take 64, none, none⟩
  | .pair artist title =>
    if artist = [] then .ok ⟨title.take 64, none, none⟩
    else if useRtPlus = true then .ok (buildRtPlusText artist title)
    else match source with
      | .promo _ => .ok ⟨(normalizeText nfc (artist ++ rtPlusSeparator ++ title)).take 64, none, none⟩
      | .nowplaying =>
        match nowPlayingFormat title artist with
        | .ok text => .ok ⟨(normalizeText nfc text).take 64, none, none⟩
        | .error .missing => .ok ⟨(normalizeText nfc title).take 64, none, none⟩
        | .error (.other error) => .error error

/-! ### What survives the cut -/

theorem length_rtPlusSeparator : rtPlusSeparator.length = 3 := by decide

variable {artist title : Text}

theorem take_take_join :
    ((artist ++ rtPlusSeparator ++ title).take 64).take artist.length = artist.take 64 := by
  rw [List.take_take, List.append_assoc, List.take_append]
  by_cases h : artist.length ≤ 64
  · rw [min_eq_left h, List.take_length, List.take_of_length_le h]
    simp
  · rw [min_eq_right (by omega)]
    simp [show 64 - artist.length = 0 by omega]

theorem drop_take_join :
    ((artist ++ rtPlusSeparator ++ title).take 64).drop
        (artist.length + rtPlusSeparator.length) = title.take (61 - artist.length) := by
  rw [List.drop_take, ← List.length_append, List.drop_left, List.length_append,
    length_rtPlusSeparator]
  congr 1
  omega

/-- A song is split at the cut, unless the title does not begin before it. -/
theorem buildRtPlusText_eq (hartist : artist ≠ []) :
    buildRtPlusText artist title =
      if title = [] ∨ 61 ≤ artist.length then
        ⟨(artist ++ rtPlusSeparator ++ title).take 64, some [], some []⟩
      else ⟨(artist ++ rtPlusSeparator ++ title).take 64, some artist,
        some (title.take (61 - artist.length))⟩ := by
  have hcut : artist.take 64 = [] ∨ title.take (61 - artist.length) = [] ↔
      title = [] ∨ 61 ≤ artist.length := by
    simp only [List.take_eq_nil_iff, hartist, Nat.sub_eq_zero_iff_le]
    tauto
  simp only [buildRtPlusText, take_take_join, drop_take_join, hcut]
  by_cases hshort : title = [] ∨ 61 ≤ artist.length
  · rw [if_pos hshort, if_pos hshort]
  · have hlength : artist.take 64 = artist := List.take_of_length_le (by omega)
    rw [if_neg hshort, if_neg hshort, hlength]

end IsadoraAir.Rbds
