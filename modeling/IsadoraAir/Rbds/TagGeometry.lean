import IsadoraAir.Rbds.Payload

/-!
# RT+ tag geometry

The tags that a receiver reads out of a tag element, and which characters of the
RadioText they select: the artist and what the cut left of the title, or the
whole of a text that is no song.
-/

namespace IsadoraAir.Rbds

variable {e : Element} {artist text title : Text} {artistLen n titleLen : ℕ}

/-! ## Reading a tag element -/

/-- A content type and the characters it applies to. -/
structure Tag where
  contentType : ℕ
  start : ℕ
  length : ℕ
  deriving DecidableEq

def itemTitle : ℕ := 1
def itemArtist : ℕ := 4

/-- The content type of the tag for a whole text. -/
def wholeText : ℕ := 25

/-- The two tags of a tag element, as fields of six bits, but for the second length, which has
five. Lengths are sent less one; content type 0 is no tag. -/
def decodeTags : Element → Option (List Tag)
  | [command, subtype, b1, b2, b3, b4, b5] =>
    if command = 0x24 ∧ subtype = 0x16 then
      let n := b1.toNat * 2 ^ 32 + b2.toNat * 2 ^ 24 + b3.toNat * 2 ^ 16 + b4.toNat * 2 ^ 8 + b5.toNat
      some ([⟨bitField n 29 6, bitField n 23 6, bitField n 17 6 + 1⟩,
        ⟨bitField n 11 6, bitField n 5 6, bitField n 0 5 + 1⟩].filter fun tag => tag.contentType ≠ 0)
    else none
  | _ => none

def Tag.select (tag : Tag) (text : Text) : Text := (text.drop tag.start).take tag.length

/-- The elements that carry tags. -/
def tagElements (elements : List Element) : List Element :=
  elements.filter fun e => e.take 2 = [0x24, 0x16]

/-! ## Writing a tag element -/

theorem toNat_byte (h : n < 256) : (UInt8.ofNat n).toNat = n := UInt8.toNat_ofNat_of_lt' h

/-- The five bytes of the tags, as one number. -/
theorem decodeTags_eq {b1 b2 b3 b4 b5 : ℕ} (hb1 : b1 < 256) (hb2 : b2 < 256) (hb3 : b3 < 256)
    (hb4 : b4 < 256) (hb5 : b5 < 256)
    (hn : n = b1 * 2 ^ 32 + b2 * 2 ^ 24 + b3 * 2 ^ 16 + b4 * 2 ^ 8 + b5) :
    decodeTags ([0x24, 0x16, b1, b2, b3, b4, b5].map UInt8.ofNat) =
      some ([⟨bitField n 29 6, bitField n 23 6, bitField n 17 6 + 1⟩,
        ⟨bitField n 11 6, bitField n 5 6, bitField n 0 5 + 1⟩].filter
          fun tag => tag.contentType ≠ 0) := by
  simp only [List.map_cons, List.map_nil]
  rw [decodeTags, if_pos ⟨rfl, rfl⟩, toNat_byte hb1, toNat_byte hb2, toNat_byte hb3,
    toNat_byte hb4, toNat_byte hb5, ← hn]

theorem mecRtPlusTags_eq (hartist : 1 ≤ artistLen)
    (hartistFits : artistLen ≤ 32) (htitle : 1 ≤ titleLen) (htitleFits : titleLen ≤ 64) :
    mecRtPlusTags artistLen titleLen =
      .ok ([0x24, 0x16, 8, 32 + (artistLen + 3) / 2,
        (artistLen + 3) % 2 * 128 + (titleLen - 1) * 2, 32, artistLen - 1].map UInt8.ofNat) := by
  have hstart : (1 <<< 5) ||| (((artistLen + 3) >>> 1) &&& 0x1F) = 32 + (artistLen + 3) / 2 := by
    rw [or_shiftLeft 5, Nat.and_two_pow_sub_one_eq_mod _ 5, Nat.shiftRight_eq_div_pow]
    · omega
    · exact Nat.and_lt_two_pow _ (by decide)
  have hlength : (((artistLen + 3) &&& 1) <<< 7) ||| (((titleLen - 1) &&& 0x3F) <<< 1) =
      (artistLen + 3) % 2 * 128 + (titleLen - 1) * 2 := by
    rw [Nat.and_two_pow_sub_one_eq_mod _ 6, Nat.and_two_pow_sub_one_eq_mod _ 1, Nat.shiftLeft_eq _ 1,
      or_shiftLeft 7]
    · omega
    · omega
  have hartistLen : (artistLen - 1) &&& 0x1F = artistLen - 1 := by
    rw [Nat.and_two_pow_sub_one_eq_mod _ 5]
    omega
  have hfits : ¬64 < titleLen := by omega
  rw [mecRtPlusTags, raiseIf, if_neg (by omega), raiseIf, if_neg (by omega)]
  change (do
    raiseIf (63 < artistLen + 3) PyError.valueError
    packBytes _) = _
  rw [raiseIf, if_neg (by omega), if_neg hfits, hstart, hlength, hartistLen]
  refine if_pos ?_
  simp only [List.forall_mem_cons, List.not_mem_nil, false_implies, implies_true, and_true]
  omega

/-- Lengths that fit come back, with the places that belong to them. -/
theorem mecRtPlusTags_decode (hartist : 1 ≤ artistLen)
    (hartistFits : artistLen ≤ 32) (htitle : 1 ≤ titleLen) (htitleFits : titleLen ≤ 64) :
    ∃ e, mecRtPlusTags artistLen titleLen = .ok e ∧ e.take 2 = [0x24, 0x16] ∧
      decodeTags e = some [⟨itemTitle, artistLen + 3, titleLen⟩, ⟨itemArtist, 0, artistLen⟩] := by
  refine ⟨_, mecRtPlusTags_eq hartist hartistFits htitle htitleFits, rfl, ?_⟩
  obtain ⟨n, hn⟩ : ∃ n, n = 2 ^ 35 + itemTitle * 2 ^ 29 + (artistLen + 3) * 2 ^ 23 +
    (titleLen - 1) * 2 ^ 17 + itemArtist * 2 ^ 11 + (artistLen - 1) := ⟨_, rfl⟩
  have hbytes : n = 8 * 2 ^ 32 + (32 + (artistLen + 3) / 2) * 2 ^ 24 +
      ((artistLen + 3) % 2 * 128 + (titleLen - 1) * 2) * 2 ^ 16 + 32 * 2 ^ 8 + (artistLen - 1) := by
    simp only [itemTitle, itemArtist] at hn
    omega
  rw [decodeTags_eq (by omega) (by omega) (by omega) (by omega) (by omega) hbytes]
  simp only [itemTitle, itemArtist] at hn
  have htype : bitField n 29 6 = itemTitle :=
    bitField_eq 1 ((artistLen + 3) * 2 ^ 23 + (titleLen - 1) * 2 ^ 17 + 4 * 2 ^ 11 + (artistLen - 1))
      (by omega) (by omega)
  have hstart : bitField n 23 6 = artistLen + 3 :=
    bitField_eq (artistLen + 3) ((titleLen - 1) * 2 ^ 17 + 4 * 2 ^ 11 + (artistLen - 1))
      (by omega) (by omega)
  have hlength : bitField n 17 6 = titleLen - 1 :=
    bitField_eq (titleLen - 1) (4 * 2 ^ 11 + (artistLen - 1)) (by omega) (by omega)
  have htype' : bitField n 11 6 = itemArtist :=
    bitField_eq 4 (artistLen - 1) (by omega) (by omega)
  have hstart' : bitField n 5 6 = 0 := bitField_eq 0 (artistLen - 1) (by omega) (by omega)
  have hlength' : bitField n 0 5 = artistLen - 1 :=
    bitField_eq (artistLen - 1) 0 (by omega) (by omega)
  rw [htype, hstart, hlength, htype', hstart', hlength', Nat.sub_add_cancel htitle,
    Nat.sub_add_cancel hartist]
  rfl

theorem mecRtPlusTagsGeneric_decode {length : ℕ} (hpos : 1 ≤ length) (hfits : length ≤ 64) :
    ∃ e, mecRtPlusTagsGeneric length = .ok e ∧ e.take 2 = [0x24, 0x16] ∧
      decodeTags e = some [⟨wholeText, 0, length⟩] := by
  have hlength : ((min (length - 1) 63) &&& 0x3F) <<< 1 = (length - 1) * 2 := by
    rw [Nat.and_two_pow_sub_one_eq_mod _ 6, Nat.shiftLeft_eq]
    omega
  refine ⟨[0x24, 0x16, 11, 32, (length - 1) * 2, 0, 0].map UInt8.ofNat, ?_, rfl, ?_⟩
  · rw [mecRtPlusTagsGeneric, raiseIf, if_neg (by omega)]
    change packBytes _ = _
    rw [hlength]
    refine if_pos ?_
    simp only [List.forall_mem_cons, List.not_mem_nil, false_implies, implies_true, and_true]
    omega
  · obtain ⟨n, hn⟩ : ∃ n, n = 11 * 2 ^ 32 + 32 * 2 ^ 24 + ((length - 1) * 2) * 2 ^ 16 + 0 * 2 ^ 8 + 0 :=
      ⟨_, rfl⟩
    rw [decodeTags_eq (by omega) (by omega) (by omega) (by omega) (by omega) hn]
    have htype : bitField n 29 6 = wholeText :=
      bitField_eq 25 ((length - 1) * 2 ^ 17) (by omega) (by omega)
    have hstart : bitField n 23 6 = 0 := bitField_eq 0 ((length - 1) * 2 ^ 17) (by omega) (by omega)
    have hlength : bitField n 17 6 = length - 1 := bitField_eq (length - 1) 0 (by omega) (by omega)
    have hnone : bitField n 11 6 = 0 := bitField_eq 0 0 (by omega) (by omega)
    rw [htype, hstart, hlength, hnone, Nat.sub_add_cancel hpos]
    rfl

/-- A text of 56 characters, as it was captured on air. -/
example : mecRtPlusTagsGeneric 56 = .ok [0x24, 0x16, 0x0B, 0x20, 0x6E, 0x00, 0x00] := by
  rfl

/-! ## The tags of a RadioText -/

/-- The tags of a song: inside the RadioText, apart, one on the artist and one on the rest of the
title. -/
structure SongTags (artist title text : Text) (titleTag artistTag : Tag) (rest : Text) : Prop where
  cut : text = artist ++ rtPlusSeparator ++ rest
  survives : rest = title ∨ rest <+: title ∧ text.length = 64
  titleType : titleTag.contentType = itemTitle
  artistType : artistTag.contentType = itemArtist
  selectsArtist : artistTag.select text = artist
  selectsTitle : titleTag.select text = rest
  apart : artistTag.start + artistTag.length ≤ titleTag.start
  inside : titleTag.start + titleTag.length ≤ text.length
  artistFits : artistTag.start < 2 ^ 6 ∧ 1 ≤ artistTag.length ∧ artistTag.length ≤ 2 ^ 5
  titleFits : titleTag.start < 2 ^ 6 ∧ 1 ≤ titleTag.length ∧ titleTag.length ≤ 2 ^ 6

/-- The parts are those of a song. -/
def RtParts.IsSong (parts : RtParts) (artist title : Text) : Prop :=
  parts = .pair artist title ∧ artist ≠ []

theorem songTags_of_short (hartist : artist ≠ [])
    (hshort : artist.length ≤ 32) (htitle : title ≠ []) :
    SongTags artist title ((artist ++ rtPlusSeparator ++ title).take 64)
      ⟨itemTitle, artist.length + 3, (title.take (61 - artist.length)).length⟩
      ⟨itemArtist, 0, artist.length⟩ (title.take (61 - artist.length)) := by
  have hjoin : (artist ++ rtPlusSeparator).length = artist.length + 3 := by
    rw [List.length_append, length_rtPlusSeparator]
  have hcut : (artist ++ rtPlusSeparator ++ title).take 64 =
      artist ++ rtPlusSeparator ++ title.take (61 - artist.length) := by
    rw [show 64 = (artist ++ rtPlusSeparator).length + (61 - artist.length) by omega,
      List.take_length_add_append]
  have hartistLength : 1 ≤ artist.length := List.length_pos_iff.2 hartist
  have htitleLength : 1 ≤ title.length := List.length_pos_iff.2 htitle
  have hrest : (title.take (61 - artist.length)).length = min (61 - artist.length) title.length :=
    List.length_take
  rw [hcut]
  constructor
  case cut => rfl
  case survives =>
    by_cases hfits : title.length ≤ 61 - artist.length
    · exact .inl (List.take_of_length_le hfits)
    · right
      refine ⟨List.take_prefix _ _, ?_⟩
      rw [List.length_append, hjoin, hrest]
      omega
  case titleType => rfl
  case artistType => rfl
  case selectsArtist =>
    rw [Tag.select, List.drop_zero, List.append_assoc, List.take_left]
  case selectsTitle =>
    rw [Tag.select, ← hjoin, List.drop_left, List.take_length]
  case apart =>
    dsimp only
    omega
  case inside =>
    rw [List.length_append, hjoin]
  case artistFits =>
    dsimp only
    omega
  case titleFits =>
    dsimp only
    omega

/-! ## What is sent -/

section Sent

variable {rt : RtContent} {full resend payload : List Element}

theorem tagElements_withCommand (elements : List Element) :
    tagElements (withCommand 0x24 elements) = tagElements elements := by
  rw [tagElements, withCommand, List.filter_filter]
  congr 1
  funext e
  cases e with
  | nil => rfl
  | cons b rest =>
    cases rest with
    | nil => simp
    | cons c rest =>
      simp only [List.take_succ_cons, List.take_zero, List.head?_cons, Option.some.injEq,
        List.cons.injEq, and_true, Bool.decide_and, Bool.and_eq_left_iff_imp, Bool.and_eq_true,
        decide_eq_true_eq]
      tauto

/-- A full payload and a resend have these tag elements. -/
structure Sends (rt : RtContent) (tags : List Element) : Prop where
  full : ∃ full, rtPlusElements true rt = .ok full ∧ tagElements full = tags
  resend : ∃ resend, rtPlusOnly rt = .ok resend ∧ tagElements resend = tags

theorem tagElements_oda (h : e.take 2 = [0x24, 0x16]) : tagElements [mecRtPlusOdaReg, e] = [e] := by
  have hreg : mecRtPlusOdaReg.take 2 ≠ [0x24, 0x16] := by decide
  simp [tagElements, hreg, h]

theorem sends_song (hartist : rt.artist = some artist) (htitle : rt.title = some title)
    (hfits : artist ≠ [] ∧ title ≠ [] ∧ artist.length ≤ 32)
    (hbuilt : mecRtPlusTags artist.length title.length = .ok e) (htag : e.take 2 = [0x24, 0x16]) :
    Sends rt [e] := by
  constructor
  case full =>
    refine ⟨[mecRtPlusOdaReg, e], ?_, tagElements_oda htag⟩
    simp only [rtPlusElements, hartist, htitle]
    rw [if_neg (by decide), if_pos hfits, hbuilt]
    rfl
  case resend =>
    refine ⟨[mecRtPlusOdaReg, e], ?_, tagElements_oda htag⟩
    simp only [rtPlusOnly, hartist, htitle]
    rw [if_pos hfits, hbuilt]
    rfl

theorem sends_no_tag (hartist : rt.artist = some artist) (htitle : rt.title = some title)
    (hlong : ¬(artist ≠ [] ∧ title ≠ [] ∧ artist.length ≤ 32)) : Sends rt [] := by
  constructor
  case full =>
    refine ⟨[mecRtPlusOdaReg], ?_, rfl⟩
    simp only [rtPlusElements, hartist, htitle]
    rw [if_neg (by decide), if_neg hlong]
    rfl
  case resend =>
    refine ⟨[], ?_, rfl⟩
    simp only [rtPlusOnly, hartist, htitle]
    rw [if_neg hlong]
    rfl

theorem sends_whole (hartist : rt.artist = none) (htitle : rt.title = none)
    (htext : rt.text ≠ []) (hbuilt : mecRtPlusTagsGeneric rt.text.length = .ok e)
    (htag : e.take 2 = [0x24, 0x16]) : Sends rt [e] := by
  constructor
  case full =>
    refine ⟨[mecRtPlusOdaReg, e], ?_, tagElements_oda htag⟩
    simp only [rtPlusElements, hartist, htitle]
    rw [if_neg (by decide), if_pos htext, hbuilt]
    rfl
  case resend =>
    refine ⟨[mecRtPlusOdaReg, e], ?_, tagElements_oda htag⟩
    simp only [rtPlusOnly, hartist, htitle]
    rw [if_pos htext, hbuilt]
    rfl

theorem sends_silent (hartist : rt.artist = none) (htitle : rt.title = none) (htext : rt.text = []) :
    Sends rt [] := by
  constructor
  case full =>
    refine ⟨[mecRtPlusOdaReg], ?_, rfl⟩
    simp only [rtPlusElements, hartist, htitle]
    rw [if_neg (by decide), if_neg (not_not.2 htext)]
    rfl
  case resend =>
    refine ⟨[], ?_, rfl⟩
    simp only [rtPlusOnly, hartist, htitle]
    rw [if_neg (not_not.2 htext)]
    rfl

/-- The RadioText element with all of the text. -/
def radioTextElement (text : Text) (toggle : Bool) : Element :=
  [0x0A, 0, 0, UInt8.ofNat (1 + text.length), UInt8.ofNat (flag 0x01 toggle)] ++ encodeRdsG0 text

theorem mecRt_eq (h : text.length ≤ 64) (toggle : Bool) :
    mecRt text toggle = radioTextElement text toggle := by
  rw [mecRt, radioTextElement, List.take_of_length_le h]

end Sent

/-! ## From the parts to the tags -/

/-- What is sent with the RadioText that the parts give. -/
structure Geometry (nfc : Text → Text) (parts : RtParts) (content : RtContent)
    (tags : List Element) : Prop where
  fits : content.text.length ≤ 64
  sends : Sends content tags
  /-- A song with a short artist and something of its title has one element with its two tags. -/
  song : ∀ artist title, parts.IsSong artist title → artist.length ≤ 32 → title ≠ [] →
    ∃ e titleTag artistTag rest, tags = [e] ∧ decodeTags e = some [titleTag, artistTag] ∧
      SongTags artist title content.text titleTag artistTag rest
  /-- Any other song has none. -/
  cut : ∀ artist title, parts.IsSong artist title → ¬(artist.length ≤ 32 ∧ title ≠ []) → tags = []
  /-- A text that is no song is tagged as a whole. -/
  whole : (¬∃ artist title, parts.IsSong artist title) → content.text ≠ [] →
    ∃ e, tags = [e] ∧ decodeTags e = some [⟨wholeText, 0, content.text.length⟩]
  silent : content.text = [] → tags = []
  /-- Every full payload with this RadioText carries all of it, and these tags. -/
  payload : ∀ (config : Config) (shown : Shown) (last : Option ℤ) (toggle includeLongPs : Bool)
    (longPs : Option Text) (payload : List Element), config.useRtPlus = true →
    shown.rt = content →
    buildUecpPayload nfc config shown last toggle includeLongPs longPs = .ok payload →
      tagElements payload = tags ∧
        withCommand 0x0A payload = [radioTextElement content.text toggle]

section Parts

variable {nfc : Text → Text} {parts : RtParts} {content : RtContent} {tags : List Element}

theorem payload_of_sends (hsends : Sends content tags) (hlength : content.text.length ≤ 64)
    (config : Config) (shown : Shown) (last : Option ℤ) (toggle includeLongPs : Bool)
    (longPs : Option Text) (payload : List Element) (hplus : config.useRtPlus = true)
    (hrt : shown.rt = content)
    (h : buildUecpPayload nfc config shown last toggle includeLongPs longPs = .ok payload) :
    tagElements payload = tags ∧
      withCommand 0x0A payload = [radioTextElement content.text toggle] := by
  have hcarries := carries_of_buildUecpPayload h
  constructor
  · obtain ⟨full, hfull, htags⟩ := hsends.full
    have hsame := hcarries.rtPlus
    rw [hplus, hrt, hfull, Except.ok.injEq] at hsame
    rw [← tagElements_withCommand, ← hsame, htags]
  · rw [hcarries.radioText, hrt, mecRt_eq hlength]

/-- A text that is no song. -/
theorem geometry_plain (nfc : Text → Text) (hlength : text.length ≤ 64)
    (hparts : ¬∃ artist title, parts.IsSong artist title) :
    ∃ tags, Geometry nfc parts ⟨text, none, none⟩ tags := by
  by_cases htext : text = []
  · have hsends : Sends ⟨text, none, none⟩ [] := sends_silent rfl rfl htext
    exact ⟨[], hlength, hsends, fun artist title h => absurd ⟨artist, title, h⟩ hparts,
      fun _ _ _ _ => rfl, fun _ hne => absurd htext hne, fun _ => rfl,
      payload_of_sends hsends hlength⟩
  · obtain ⟨e, hbuilt, htag, hdecode⟩ :=
      mecRtPlusTagsGeneric_decode (List.length_pos_iff.2 htext) hlength
    have hsends : Sends ⟨text, none, none⟩ [e] := sends_whole rfl rfl htext hbuilt htag
    exact ⟨[e], hlength, hsends, fun artist title h => absurd ⟨artist, title, h⟩ hparts,
      fun artist title h => absurd ⟨artist, title, h⟩ hparts, fun _ _ => ⟨e, rfl, hdecode⟩,
      fun hnone => absurd hnone htext, payload_of_sends hsends hlength⟩

/-- A song that sends no tag: its title was cut away, or its artist is too long. -/
theorem geometry_untagged (hsong : parts.IsSong artist title)
    (hlength : content.text.length ≤ 64) (hlong : ¬(artist.length ≤ 32 ∧ title ≠ []))
    (hsends : Sends content []) : Geometry nfc parts content [] where
  fits := hlength
  sends := hsends
  song artist' title' h hshort htitle := by
    cases hsong.1.symm.trans h.1
    exact absurd ⟨hshort, htitle⟩ hlong
  cut _ _ _ _ := rfl
  whole h _ := absurd ⟨artist, title, hsong⟩ h
  silent _ := rfl
  payload := payload_of_sends hsends hlength

theorem geometry_tagged (hsong : parts.IsSong artist title) (hshort : artist.length ≤ 32)
    (htitle : title ≠ []) (htext : content.text = (artist ++ rtPlusSeparator ++ title).take 64)
    (hdecode : decodeTags e = some
      [⟨itemTitle, artist.length + 3, (title.take (61 - artist.length)).length⟩,
        ⟨itemArtist, 0, artist.length⟩])
    (hsends : Sends content [e]) : Geometry nfc parts content [e] where
  fits := by
    rw [htext]
    exact List.length_take_le ..
  sends := hsends
  song artist' title' h _ _ := by
    cases hsong.1.symm.trans h.1
    refine ⟨e, _, _, title.take (61 - artist.length), rfl, hdecode, ?_⟩
    rw [htext]
    exact songTags_of_short hsong.2 hshort htitle
  cut artist' title' h hlong := by
    cases hsong.1.symm.trans h.1
    exact absurd ⟨hshort, htitle⟩ hlong
  whole h _ := absurd ⟨artist, title, hsong⟩ h
  silent h := by
    rw [htext, List.take_eq_nil_iff] at h
    simp [hsong.2] at h
  payload := payload_of_sends hsends (by rw [htext]; exact List.length_take_le ..)

theorem geometry_song (nfc : Text → Text) (title : Text) (hartist : artist ≠ []) :
    ∃ tags, Geometry nfc (.pair artist title) (buildRtPlusText artist title) tags := by
  have hsong : RtParts.IsSong (.pair artist title) artist title := ⟨rfl, hartist⟩
  rw [buildRtPlusText_eq hartist]
  by_cases hcut : title = [] ∨ 61 ≤ artist.length
  · rw [if_pos hcut]
    refine ⟨[], geometry_untagged hsong (List.length_take_le ..) ?_
      (sends_no_tag rfl rfl fun h => h.1 rfl)⟩
    rintro ⟨hshort, htitle⟩
    rcases hcut with hnone | hlong
    · exact htitle hnone
    · omega
  · rw [if_neg hcut]
    obtain ⟨htitle, hbegins⟩ := not_or.1 hcut
    by_cases hshort : artist.length ≤ 32
    · have hpos : title.take (61 - artist.length) ≠ [] := by
        rw [ne_eq, List.take_eq_nil_iff, not_or]
        exact ⟨by omega, htitle⟩
      have hrest : (title.take (61 - artist.length)).length ≤ 64 :=
        (List.length_take_le ..).trans (by omega)
      obtain ⟨e, hbuilt, htag, hdecode⟩ := mecRtPlusTags_decode (List.length_pos_iff.2 hartist)
        hshort (List.length_pos_iff.2 hpos) hrest
      exact ⟨[e], geometry_tagged hsong hshort htitle rfl hdecode
        (sends_song rfl rfl ⟨hartist, hpos, hshort⟩ hbuilt htag)⟩
    · exact ⟨[], geometry_untagged hsong (List.length_take_le ..) (fun h => hshort h.1)
        (sends_no_tag rfl rfl fun h => hshort h.2.2)⟩

end Parts

/-- With RT+ enabled, whatever is playing and whatever the messages say, the RadioText and its
tags fit together, in the full payload and in the resend. -/
theorem rt_plus_geometry (nfc : Text → Text)
    (nowPlayingFormat : Text → Text → Except FormatError Text) (nowPlaying : NowPlaying)
    (messages : String → Option RotationMessage) (source : Source) :
    ∃ content tags,
      resolveRtContent nfc true nowPlayingFormat nowPlaying messages source = .ok content ∧
        Geometry nfc (readRtParts nfc nowPlaying messages source) content tags := by
  rw [resolveRtContent]
  cases hparts : readRtParts nfc nowPlaying messages source with
  | plain text =>
    have hnone : ¬∃ artist title, RtParts.IsSong (.plain text) artist title := by
      rintro ⟨artist, title, h, -⟩
      cases h
    obtain ⟨tags, htags⟩ := geometry_plain nfc (List.length_take_le 64 text) hnone
    exact ⟨_, tags, rfl, htags⟩
  | pair artist title =>
    by_cases hartist : artist = []
    · have hnone : ¬∃ artist' title', RtParts.IsSong (.pair artist title) artist' title' := by
        rintro ⟨artist', title', h, hne⟩
        cases h
        exact hne hartist
      obtain ⟨tags, htags⟩ := geometry_plain nfc (List.length_take_le 64 title) hnone
      exact ⟨_, tags, if_pos hartist, htags⟩
    · obtain ⟨tags, htags⟩ := geometry_song nfc title hartist
      refine ⟨_, tags, ?_, htags⟩
      dsimp only
      rw [if_neg hartist, if_pos rfl]

end IsadoraAir.Rbds
