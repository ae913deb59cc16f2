import IsadoraAir.Foundation.Octets
import IsadoraAir.Foundation.PyError
import Mathlib.Data.Nat.Digits.Defs

/-!
# UECP framing

`STA | ADD(2) | SQC | MFL | MSG | CRC(2) | STP`, where the span between the two
delimiters is byte-stuffed. Splitting looks for the delimiters only, without
undoing the stuffing.
-/

namespace IsadoraAir.Rbds

abbrev Byte := UInt8

def STA : Byte := 0xFE
def STP : Byte := 0xFF

/-- `struct.pack(">H", n)` -/
def packH (n : ℕ) : Except PyError (List Byte) :=
  if n < 65536 then .ok [UInt8.ofNat (n / 256), UInt8.ofNat n] else .error .structError

/-- `bytes([n])` -/
def packByte (n : ℕ) : Except PyError (List Byte) :=
  if n < 256 then .ok [UInt8.ofNat n] else .error .valueError

/-- One of the eight shifts for a byte. -/
def crcShift (crc : ℕ) : ℕ :=
  if crc &&& 0x8000 ≠ 0 then ((crc <<< 1) ^^^ 0x1021) &&& 0xFFFF else (crc <<< 1) &&& 0xFFFF

def crcByte (crc : ℕ) (byte : Byte) : ℕ :=
  crcShift^[8] (crc ^^^ (byte.toNat <<< 8))

def crcRegister (data : List Byte) : ℕ := data.foldl crcByte 0xFFFF

def crcCcitt (data : List Byte) : Except PyError (List Byte) :=
  packH (crcRegister data ^^^ 0xFFFF)

def byteStuff : List Byte → List Byte
  | [] => []
  | b :: data =>
    (if b = 0xFD then [0xFD, 0x00]
    else if b = 0xFE then [0xFD, 0x01]
    else if b = 0xFF then [0xFD, 0x02]
    else [b]) ++ byteStuff data

/-- The addresses and the sequence counter are masked integers of any size;
a mask of ones is a remainder. -/
def buildFrame (siteAddress encoderAddress sqc : ℤ) (msg : List Byte) :
    Except PyError (List Byte) := do
  let add ← packH (((siteAddress % 1024).toNat <<< 6) ||| (encoderAddress % 64).toNat)
  let mfl ← packByte msg.length
  let core := add ++ [UInt8.ofNat (sqc % 256).toNat] ++ mfl ++ msg
  let crc ← crcCcitt core
  .ok ([STA] ++ byteStuff (core ++ crc) ++ [STP])

/-- The two `ValueError`s of `split_frames`. -/
inductive SplitError where
  | expectedSta (offset : ℕ) (found : Byte)
  | noStp (offset : ℕ)
  deriving DecidableEq, Repr

/-- `0x{b:02X}` -/
def hexByte (b : Byte) : String :=
  let digit (n : ℕ) : Char := Char.toUpper (Nat.digitChar n)
  String.ofList ['0', 'x', digit (b.toNat / 16), digit (b.toNat % 16)]

def SplitError.message : SplitError → String
  | expectedSta offset found =>
    "split_frames: expected STA (" ++ hexByte STA ++ ") at offset " ++ toString offset ++
      ", found " ++ hexByte found
  | noStp offset =>
    "split_frames: no STP (" ++ hexByte STP ++ ") found for frame starting at offset " ++
      toString offset

/-- The loop of `split_frames` with `rest` the payload from `offset` on. -/
def splitFrom (offset : ℕ) (rest : List Byte) : Except SplitError (List (List Byte)) :=
  match rest with
  | [] => .ok []
  | b :: tail =>
    if b ≠ STA then .error (.expectedSta offset b)
    else if STP ∉ tail then .error (.noStp offset)
    else do
      let frames ← splitFrom (offset + 1 + (tail.idxOf STP + 1)) (tail.drop (tail.idxOf STP + 1))
      .ok ((b :: tail.take (tail.idxOf STP + 1)) :: frames)
  termination_by rest.length
  decreasing_by
    simp only [List.length_cons, List.length_drop]
    omega

def splitFrames (payload : List Byte) : Except SplitError (List (List Byte)) :=
  splitFrom 0 payload

/-! ## The stuffed span -/

/-- The three escaped bytes and the second bytes of their pairs. -/
def uecpCode : EscapeCode Byte where
  mark := 0xFD
  escape b :=
    if b = 0xFD then some 0x00 else if b = 0xFE then some 0x01
    else if b = 0xFF then some 0x02 else none
  unescape c :=
    if c = 0x00 then some 0xFD else if c = 0x01 then some 0xFE
    else if c = 0x02 then some 0xFF else none
  mark_escaped := by simp
  unescape_escape {x c} h := by
    split_ifs at h with h1 h2 h3 <;> cases h <;> simp_all
  escape_plain {x c} h := by
    split_ifs at h <;> cases h <;> decide

theorem byteStuff_eq (data : List Byte) : byteStuff data = uecpCode.stuff data := by
  induction data with
  | nil => rfl
  | cons b data ih =>
    rw [byteStuff, EscapeCode.stuff, ih]
    congr 1
    simp only [uecpCode]
    split_ifs <;> rfl

/-- No delimiter survives in a stuffed span. -/
theorem not_mem_byteStuff (data : List Byte) : STA ∉ byteStuff data ∧ STP ∉ byteStuff data := by
  rw [byteStuff_eq]
  constructor
  · intro h
    rcases uecpCode.mem_stuff h with h | h <;> revert h <;> decide
  · intro h
    rcases uecpCode.mem_stuff h with h | h <;> revert h <;> decide

theorem crcShift_lt (crc : ℕ) : crcShift crc < 2 ^ 16 := by
  unfold crcShift
  split_ifs <;> exact Nat.and_lt_two_pow _ (by decide)

theorem crcByte_lt (crc : ℕ) (byte : Byte) : crcByte crc byte < 2 ^ 16 := by
  rw [crcByte, Function.iterate_succ_apply']
  exact crcShift_lt _

theorem crcRegister_lt (data : List Byte) : crcRegister data < 2 ^ 16 := by
  induction data using List.reverseRecOn with
  | nil => decide
  | append_singleton data byte _ =>
    rw [crcRegister, List.foldl_append]
    exact crcByte_lt _ byte

/-- The register always fits the two bytes of the checksum. -/
theorem crcCcitt_ok (data : List Byte) : ∃ hi lo, crcCcitt data = .ok [hi, lo] := by
  have hlt : crcRegister data ^^^ 0xFFFF < 65536 :=
    Nat.xor_lt_two_pow (n := 16) (crcRegister_lt data) (by decide)
  exact ⟨_, _, by rw [crcCcitt, packH, if_pos hlt]⟩

/-! ## Reading a frame back -/

/-- The fields of an un-stuffed span, as the frame layout lists them. -/
structure Fields where
  siteAddress : ℕ
  encoderAddress : ℕ
  sqc : ℕ
  mfl : ℕ
  msg : List Byte
  crc : List Byte
  deriving DecidableEq, Repr

/-- What a receiver reads between the delimiters. -/
def readSpan (span : List Byte) : Option Fields :=
  (uecpCode.unstuff span).bind fun core =>
    match core with
    | hi :: lo :: sqc :: mfl :: rest =>
      some
        { siteAddress := (hi.toNat * 256 + lo.toNat) / 64
          encoderAddress := (hi.toNat * 256 + lo.toNat) % 64
          sqc := sqc.toNat
          mfl := mfl.toNat
          msg := rest.take mfl.toNat
          crc := rest.drop mfl.toNat }
    | _ => none

/-- A frame of `span`: its only delimiters are its first and its last byte. -/
structure FrameOf (frame span : List Byte) : Prop where
  eq : frame = STA :: (span ++ [STP])
  noSta : STA ∉ span
  noStp : STP ∉ span

/-- What is handed to `build_frame`; `MSG` has at most 255 bytes. -/
structure Message where
  siteAddress : ℤ
  encoderAddress : ℤ
  sqc : ℤ
  msg : List Byte
  fits : msg.length ≤ 255

namespace Message

variable (m : Message)

def build : Except PyError (List Byte) :=
  buildFrame m.siteAddress m.encoderAddress m.sqc m.msg

/-- The fields a receiver should find, with the checksum `crc`. -/
def fields (crc : List Byte) : Fields where
  siteAddress := (m.siteAddress % 1024).toNat
  encoderAddress := (m.encoderAddress % 64).toNat
  sqc := (m.sqc % 256).toNat
  mfl := m.msg.length
  msg := m.msg
  crc := crc

/-- A frame whose span reads back as the message and its checksum. -/
structure Carried (frame : List Byte) : Prop where
  span : ∃ span core crc, FrameOf frame span ∧ uecpCode.unstuff span = some (core ++ crc) ∧
    crc.length = 2 ∧ crcCcitt core = .ok crc ∧ readSpan span = some (m.fields crc)

end Message

/-- The packed address, and the way its two bytes come apart again. -/
theorem packH_address {site encoder : ℕ} (hs : site < 1024) (he : encoder < 64) :
    ∃ hi lo, packH ((site <<< 6) ||| encoder) = .ok [hi, lo] ∧
      (hi.toNat * 256 + lo.toNat) / 64 = site ∧ (hi.toNat * 256 + lo.toNat) % 64 = encoder := by
  have hadd : (site <<< 6) ||| encoder = site * 64 + encoder := by
    rw [← Nat.shiftLeft_add_eq_or_of_lt he, Nat.shiftLeft_eq]
  have hlt : site * 64 + encoder < 65536 := by omega
  refine ⟨UInt8.ofNat ((site * 64 + encoder) / 256), UInt8.ofNat (site * 64 + encoder), ?_, ?_, ?_⟩
  · rw [hadd, packH, if_pos hlt]
  · simp only [UInt8.toNat_ofNat']
    omega
  · simp only [UInt8.toNat_ofNat']
    omega

/-- Every message that fits is framed, and the frame carries it. -/
theorem build_carried (m : Message) : ∃ frame, m.build = .ok frame ∧ m.Carried frame := by
  have hsite : (m.siteAddress % 1024).toNat < 1024 := by omega
  have hencoder : (m.encoderAddress % 64).toNat < 64 := by omega
  have hmsg : m.msg.length < 256 := Nat.lt_succ_of_le m.fits
  obtain ⟨hi, lo, hpack, hsiteAddress, hencoderAddress⟩ := packH_address hsite hencoder
  have hmfl : packByte m.msg.length = .ok [UInt8.ofNat m.msg.length] := by
    rw [packByte, if_pos hmsg]
  let core := [hi, lo] ++ [UInt8.ofNat (m.sqc % 256).toNat] ++ [UInt8.ofNat m.msg.length] ++ m.msg
  obtain ⟨crcHi, crcLo, hcrc⟩ := crcCcitt_ok core
  have hstuffed := not_mem_byteStuff (core ++ [crcHi, crcLo])
  have hunstuff : uecpCode.unstuff (byteStuff (core ++ [crcHi, crcLo])) =
      some (core ++ [crcHi, crcLo]) := by
    rw [byteStuff_eq, uecpCode.unstuff_stuff]
  refine ⟨STA :: (byteStuff (core ++ [crcHi, crcLo]) ++ [STP]), ?_, ?_⟩
  · rw [Message.build, buildFrame, hpack, hmfl]
    change (crcCcitt core >>= _) = _
    rw [hcrc]
    rfl
  · refine ⟨byteStuff (core ++ [crcHi, crcLo]), core, [crcHi, crcLo],
      ⟨rfl, hstuffed.1, hstuffed.2⟩, hunstuff, rfl, hcrc, ?_⟩
    have hsqc : (UInt8.ofNat (m.sqc % 256).toNat).toNat = (m.sqc % 256).toNat := by
      simp only [UInt8.toNat_ofNat']
      omega
    have hlength : (UInt8.ofNat m.msg.length).toNat = m.msg.length := by
      simp only [UInt8.toNat_ofNat']
      omega
    rw [readSpan, hunstuff]
    simp [core, Message.fields, hsiteAddress, hencoderAddress, hsqc, hlength]

/-! ## Splitting -/

/-- One step of the loop on a payload that starts with a frame. -/
theorem splitFrom_frame {frame span : List Byte} (h : FrameOf frame span) (offset : ℕ)
    (rest : List Byte) :
    splitFrom offset (frame ++ rest) =
      (splitFrom (offset + frame.length) rest).map (frame :: ·) := by
  have hidx : (span ++ [STP] ++ rest).idxOf STP = span.length := by
    rw [List.append_assoc, List.idxOf_append_of_notMem h.noStp]
    simp
  rw [h.eq, List.cons_append, splitFrom]
  have hmem : STP ∈ span ++ [STP] ++ rest := by simp
  have htake : (span ++ [STP] ++ rest).take (span.length + 1) = span ++ [STP] :=
    List.take_left' (by simp)
  have hdrop : (span ++ [STP] ++ rest).drop (span.length + 1) = rest :=
    List.drop_left' (by simp)
  simp only [ne_eq, not_true_eq_false, if_false, hmem, hidx, htake, hdrop, List.length_cons,
    List.length_append, List.length_nil]
  rw [show offset + 1 + (span.length + 1) = offset + (span.length + (0 + 1) + 1) by ring]
  cases splitFrom (offset + (span.length + (0 + 1) + 1)) rest <;> rfl

/-- Back-to-back frames come apart as they were put together. -/
theorem splitFrom_flatten {frames : List (List Byte)} (h : ∀ f ∈ frames, ∃ span, FrameOf f span)
    (offset : ℕ) : splitFrom offset frames.flatten = .ok frames := by
  induction frames generalizing offset with
  | nil => rw [List.flatten_nil, splitFrom]
  | cons frame frames ih =>
    obtain ⟨span, hspan⟩ := h frame List.mem_cons_self
    rw [List.flatten_cons, splitFrom_frame hspan, ih fun f hf => h f (List.mem_cons_of_mem _ hf)]
    rfl

/-- A piece begins with `STA` and has its only `STP` at the end. -/
def Piece (piece : List Byte) : Prop :=
  ∃ span, piece = STA :: (span ++ [STP]) ∧ STP ∉ span

theorem splitFrom_sound {offset : ℕ} {rest : List Byte} {pieces : List (List Byte)}
    (h : splitFrom offset rest = .ok pieces) :
    pieces.flatten = rest ∧ ∀ piece ∈ pieces, Piece piece := by
  induction offset, rest using splitFrom.induct generalizing pieces with
  | case1 offset =>
    rw [splitFrom] at h
    cases h
    simp
  | case2 offset b tail hb =>
    rw [splitFrom, if_pos hb] at h
    cases h
  | case3 offset b tail hb hmem =>
    rw [splitFrom, if_neg hb, if_pos hmem] at h
    cases h
  | case4 offset b tail hb hmem ih =>
    rw [splitFrom, if_neg hb, if_neg hmem] at h
    obtain ⟨frames, hframes, h⟩ := bind_eq_ok.mp h
    cases h
    obtain ⟨hflatten, hpieces⟩ := ih hframes
    have hb : b = STA := not_not.mp hb
    have hmem : STP ∈ tail := not_not.mp hmem
    have hlt : tail.idxOf STP < tail.length := List.idxOf_lt_length_of_mem hmem
    refine ⟨?_, ?_⟩
    · rw [List.flatten_cons, hflatten, List.cons_append, List.take_append_drop]
    · intro piece hpiece
      rcases List.mem_cons.mp hpiece with rfl | hpiece
      · refine ⟨tail.take (tail.idxOf STP), ?_, ?_⟩
        · rw [hb, List.take_succ_eq_append_getElem hlt, List.getElem_idxOf]
        · intro hin
          exact lt_irrefl _ ((List.mem_take_iff_idxOf_lt hmem).mp hin)
      · exact hpieces piece hpiece

/-- Framed messages survive concatenation, splitting and un-stuffing; and
whatever the splitter accepts is cut into the pieces it is made of. -/
theorem splitFrames_of_messages_and_sound :
    (∀ messages : List Message, ∃ frames, messages.mapM Message.build = .ok frames ∧
      splitFrames frames.flatten = .ok frames ∧
      List.Forall₂ Message.Carried messages frames) ∧
    ∀ payload pieces, splitFrames payload = .ok pieces →
      pieces.flatten = payload ∧ ∀ piece ∈ pieces, Piece piece := by
  constructor
  · intro messages
    have hbuilt : ∃ frames, messages.mapM Message.build = .ok frames ∧
        List.Forall₂ Message.Carried messages frames ∧ ∀ f ∈ frames, ∃ span, FrameOf f span := by
      induction messages with
      | nil => exact ⟨[], rfl, .nil, fun _ h => nomatch h⟩
      | cons m messages ih =>
        obtain ⟨frame, hframe, hcarried⟩ := build_carried m
        obtain ⟨frames, hframes, hall, hspans⟩ := ih
        obtain ⟨span, -, -, hspan, -⟩ := hcarried.span
        exact ⟨frame :: frames, by rw [List.mapM_cons, hframe, hframes]; rfl,
          .cons hcarried hall, List.forall_mem_cons.mpr ⟨⟨span, hspan⟩, hspans⟩⟩
    obtain ⟨frames, hframes, hall, hspans⟩ := hbuilt
    exact ⟨frames, hframes, splitFrom_flatten hspans 0, hall⟩
  · intro payload pieces h
    exact splitFrom_sound h

theorem splitFrames_of_messages_and_sound_sample :
    ∃ pieces, splitFrames [0xFE, 0x10, 0xFF, 0xFE, 0xFF] = .ok pieces ∧
      pieces.flatten = [0xFE, 0x10, 0xFF, 0xFE, 0xFF] ∧ ∀ piece ∈ pieces, Piece piece := by
  have h : splitFrames [[0xFE, 0x10, 0xFF], [0xFE, 0xFF]].flatten =
      .ok [[0xFE, 0x10, 0xFF], [0xFE, 0xFF]] := by
    refine splitFrom_flatten (List.forall_mem_cons.mpr ⟨⟨[0x10], rfl, ?_, ?_⟩,
      List.forall_mem_singleton.mpr ⟨[], rfl, ?_, ?_⟩⟩) 0 <;> decide
  exact ⟨_, h, splitFrames_of_messages_and_sound.2 _ _ h⟩

/-! ## The frames of a payload -/

section Payload

variable {siteAddress encoderAddress : ℤ} {meds frames : List (List Byte)}

/-- `self._sqc = (self._sqc % 255) + 1` -/
def nextSqc (sqc : ℕ) : ℕ := sqc % 255 + 1

/-- `_frames_for`: the sequence number that it leaves, and the payload. -/
def framesFor (siteAddress encoderAddress : ℤ) :
    ℕ → List (List Byte) → ℕ × Except PyError (List Byte)
  | sqc, [] => (sqc, .ok [])
  | sqc, med :: meds =>
    match buildFrame siteAddress encoderAddress (nextSqc sqc) med with
    | .error e => (nextSqc sqc, .error e)
    | .ok frame =>
      let (last, out) := framesFor siteAddress encoderAddress (nextSqc sqc) meds
      (last, out.map (frame ++ ·))

inductive Transport where
  | tcp
  | udp
  deriving DecidableEq

/-- The writes of `_transmit`: the whole payload on a stream, a datagram for each frame. -/
def transmit : Transport → List Byte → Except SplitError (List (List Byte))
  | .tcp, payload => .ok [payload]
  | .udp, payload => splitFrames payload

/-- The sequence number and the message of a frame whose checksum is right. -/
def readFrame (frame : List Byte) : Option (ℕ × List Byte) := do
  let core ← uecpCode.unstuff frame.tail.dropLast
  let fields ← readSpan frame.tail.dropLast
  if (crcCcitt (core.take (core.length - 2))).toOption = some fields.crc then
    some (fields.sqc, fields.msg)
  else none

def readWrite (write : List Byte) : Option (List (ℕ × List Byte)) :=
  (splitFrames write).toOption.bind (List.mapM readFrame)

/-- The messages under the sequence numbers that follow `sqc`. -/
def numbered : ℕ → List (List Byte) → List (ℕ × List Byte)
  | _, [] => []
  | sqc, med :: meds => (nextSqc sqc, med) :: numbered (nextSqc sqc) meds

theorem snd_numbered (sqc : ℕ) : (numbered sqc meds).map Prod.snd = meds := by
  induction meds generalizing sqc with
  | nil => rfl
  | cons med meds ih => rw [numbered, List.map_cons, ih]

theorem Message.Carried.readFrame {m : Message} {frame : List Byte} (h : m.Carried frame) :
    readFrame frame = some ((m.sqc % 256).toNat, m.msg) := by
  obtain ⟨span, core, crc, hframe, hunstuff, hlength, hcrc, hread⟩ := h.span
  have hspan : frame.tail.dropLast = span := by rw [hframe.eq, List.tail_cons, List.dropLast_concat]
  have hcore : (core ++ crc).take ((core ++ crc).length - 2) = core :=
    List.take_left' (by rw [List.length_append, hlength]; rfl)
  rw [Rbds.readFrame, hspan, hunstuff, hread]
  show (if (crcCcitt ((core ++ crc).take ((core ++ crc).length - 2))).toOption = some crc then _
    else none) = _
  rw [hcore, hcrc]
  exact if_pos rfl

/-- The frames of messages that fit are built, and are read back under their numbers. -/
theorem framesFor_read (hmeds : ∀ med ∈ meds, med.length ≤ 255) (sqc : ℕ) :
    ∃ frames : List (List Byte), (framesFor siteAddress encoderAddress sqc meds).2 = .ok frames.flatten ∧
      (∀ f ∈ frames, ∃ span, FrameOf f span) ∧
        frames.mapM readFrame = some (numbered sqc meds) := by
  induction meds generalizing sqc with
  | nil => exact ⟨[], rfl, List.forall_mem_nil _, rfl⟩
  | cons med meds ih =>
    obtain ⟨hmed, hmeds⟩ := List.forall_mem_cons.mp hmeds
    obtain ⟨frames, hbuilt, hspans, hread⟩ := ih hmeds (nextSqc sqc)
    obtain ⟨frame, hframe, hcarried⟩ :=
      build_carried ⟨siteAddress, encoderAddress, nextSqc sqc, med, hmed⟩
    obtain ⟨span, -, -, hspan, -⟩ := hcarried.span
    have hsqc : (((nextSqc sqc : ℕ) : ℤ) % 256).toNat = nextSqc sqc := by
      unfold nextSqc
      omega
    have hmine : readFrame frame = some (nextSqc sqc, med) := hsqc ▸ hcarried.readFrame
    refine ⟨frame :: frames, ?_, List.forall_mem_cons.mpr ⟨⟨span, hspan⟩, hspans⟩, ?_⟩
    · have hfirst : buildFrame siteAddress encoderAddress (nextSqc sqc) med = .ok frame := hframe
      simp only [framesFor, hfirst, hbuilt]
      rfl
    · rw [List.mapM_cons, hmine, hread]
      rfl

theorem readWrite_flatten (h : ∀ f ∈ frames, ∃ span, FrameOf f span) :
    readWrite frames.flatten = frames.mapM readFrame := by
  rw [readWrite, splitFrames, splitFrom_flatten h]
  rfl

theorem mapM_readWrite (h : ∀ f ∈ frames, ∃ span, FrameOf f span) :
    (frames.mapM readWrite).map List.flatten = frames.mapM readFrame := by
  induction frames with
  | nil => rfl
  | cons frame frames ih =>
    obtain ⟨hframe, hframes⟩ := List.forall_mem_cons.mp h
    have hone : readWrite frame = (readFrame frame).map fun x => [x] := by
      have hflatten := readWrite_flatten (List.forall_mem_singleton.mpr hframe)
      rw [List.flatten_singleton, List.mapM_cons, List.mapM_nil] at hflatten
      rw [hflatten]
      cases readFrame frame <;> rfl
    rw [List.mapM_cons, List.mapM_cons, ← ih hframes, hone]
    cases readFrame frame <;> cases frames.mapM readWrite <;> rfl

/-- Over either transport every message arrives, in order and under its number. -/
theorem transmit_read (hmeds : ∀ med ∈ meds, med.length ≤ 255) (sqc : ℕ) (transport : Transport) :
    ∃ payload writes, (framesFor siteAddress encoderAddress sqc meds).2 = .ok payload ∧
      transmit transport payload = .ok writes ∧
      (writes.mapM readWrite).map List.flatten = some (numbered sqc meds) := by
  obtain ⟨frames, hbuilt, hspans, hread⟩ := framesFor_read hmeds sqc
  cases transport with
  | tcp =>
    refine ⟨_, [frames.flatten], hbuilt, rfl, ?_⟩
    rw [List.mapM_cons, readWrite_flatten hspans, hread]
    exact congrArg some (List.flatten_singleton ..)
  | udp => exact ⟨_, frames, hbuilt, splitFrom_flatten hspans 0, (mapM_readWrite hspans).trans hread⟩

end Payload
end IsadoraAir.Rbds
