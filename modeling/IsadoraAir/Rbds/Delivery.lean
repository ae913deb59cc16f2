import IsadoraAir.Foundation.Succession
import IsadoraAir.Rbds.SendGate

/-!
# What the encoder has been told

The committed values of the manager are those of the last full payload that was
sent with success, over whichever protocol. From there on: when A/B is toggled,
when a payload goes out, when the language is cleared, and that Long PS is sent
only while it is managed.
-/

namespace IsadoraAir.Rbds

open Runs (run)

variable {e : Element} {payload : Payload} {r : Record} {data variant : ℕ}

/-! ## Reading the history -/

/-- The full payload that was sent with success. -/
def Record.delivered (r : Record) : Option Payload :=
  r.full.bind fun full => if full.ok = true then full.payload.toOption else none

/-- The full payload that was built, sent or not. -/
def Record.attempted (r : Record) : Option Payload := r.full.bind fun full => full.payload.toOption

/-- Every element that the tick handed to a transmission. -/
def Record.elements (r : Record) : List Element :=
  r.attempted.elim [] Payload.elements ++ r.others

def Record.success (r : Record) : Option Record := r.delivered.map fun _ => r

def Record.managedSuccess (r : Record) : Option Record :=
  if r.tick.config.longPsManaged = true then r.success else none

/-- The last tick whose full payload was sent. -/
def lastSuccess (history : List Record) : Option Record := latest Record.success history

/-- The last tick whose full payload was sent while Long PS was managed. -/
def lastManaged (history : List Record) : Option Record := latest Record.managedSuccess history

/-- The flags of the RadioText element tell the encoder to toggle A/B. -/
def toggles (elements : List Element) : Prop :=
  ∃ e ∈ withCommand 0x0A elements, ∃ flags, e[4]? = some flags ∧ bitField flags.toNat 0 1 = 1

/-- A language code is labelled as variant 3. -/
def readLanguage : Element → Option ℕ
  | [command, _, high, low] =>
    if command = 0x1A ∧ bitField high.toNat 4 3 = 3 then
      some (bitField high.toNat 0 4 * 256 + low.toNat)
    else none
  | _ => none

/-- The language code that the encoder is left with by the payload, if it carries one. -/
def Payload.languageCode (payload : Payload) : Option ℕ := latest readLanguage payload.elements

def deliveredLanguage (history : List Record) : Option ℕ :=
  latest (fun r => r.delivered.bind Payload.languageCode) history

/-! ## Elements -/

theorem mecSlowLabelling_eq (hvariant : variant ≤ 7) (hdata : data ≤ 0xFFF) :
    mecSlowLabelling variant data =
      .ok ([0x1A, 0, variant * 16 + data / 256, data % 256].map UInt8.ofNat) := by
  have hhigh : ((variant &&& 0x7) <<< 4) ||| ((data >>> 8) &&& 0xF) = variant * 16 + data / 256 := by
    rw [Nat.and_two_pow_sub_one_eq_mod _ 3, Nat.and_two_pow_sub_one_eq_mod _ 4,
      Nat.shiftRight_eq_div_pow, or_shiftLeft 4 (Nat.mod_lt _ (by decide))]
    omega
  have hlow : data &&& 0xFF = data % 256 := Nat.and_two_pow_sub_one_eq_mod _ 8
  rw [mecSlowLabelling, raiseIf, if_neg (by omega)]
  change (raiseIf _ _ >>= _) = _
  rw [raiseIf, if_neg (by omega)]
  change packBytes _ = _
  rw [Int.toNat_natCast, Int.toNat_natCast, hhigh, hlow]
  refine if_pos ?_
  simp only [List.forall_mem_cons, List.not_mem_nil, false_implies, implies_true, and_true]
  omega

/-- A code of eight bits leaves the variant alone, and comes back. -/
theorem readLanguage_labelling (hvariant : variant ≤ 7)
    (hdata : data ≤ 0xFF) (h : mecSlowLabelling variant data = .ok e) :
    readLanguage e = if variant = 3 then some data else none := by
  rw [mecSlowLabelling_eq hvariant (by omega)] at h
  cases h
  simp only [List.map_cons, List.map_nil]
  rw [readLanguage, UInt8.toNat_ofNat_of_lt' (by omega : variant * 16 + data / 256 < 256),
    UInt8.toNat_ofNat_of_lt' (by omega : data % 256 < 256),
    bitField_eq variant 0 (by omega) (by omega), bitField_eq 0 0 (by omega) (by omega)]
  by_cases hthree : variant = 3
  · rw [if_pos ⟨rfl, hthree⟩, if_pos hthree]
    congr 1
    omega
  · rw [if_neg (fun h => hthree h.2), if_neg hthree]

theorem readLanguage_mecLanguageCode {code : ℤ} (h : mecLanguageCode code = .ok e) :
    readLanguage e = some code.toNat := by
  simp only [mecLanguageCode, bind_eq_ok, raiseIf_eq_ok, not_not] at h
  obtain ⟨-, ⟨hpos, hle⟩, h⟩ := h
  lift code to ℕ using hpos
  exact readLanguage_labelling (by decide) (by omega) h

theorem readLanguage_mecEcc {ecc : ℤ} (h : mecEcc ecc = .ok e) : readLanguage e = none := by
  simp only [mecEcc, bind_eq_ok, raiseIf_eq_ok, not_not] at h
  obtain ⟨-, ⟨hpos, hle⟩, h⟩ := h
  lift ecc to ℕ using hpos
  exact readLanguage_labelling (by decide) (by omega) h

theorem latest_readLanguage (elements : List Element) :
    latest readLanguage (withCommand 0x1A elements) = latest readLanguage elements := by
  refine latest_filter (fun e he => ?_) elements
  rw [decide_eq_false_iff_not] at he
  unfold readLanguage
  split
  · exact if_neg fun h => he (by rw [List.head?_cons, h.1])
  · rfl

theorem latest_languageElements {code last : Option ℤ} {language : List Element}
    (h : languageElements code last = .ok language) :
    latest readLanguage language = code.elim (last.map fun _ => 0) fun code => some code.toNat := by
  unfold languageElements at h
  split at h
  · obtain ⟨built, hbuilt, h⟩ := bind_eq_ok.1 h
    cases h
    simp [latest, readLanguage_mecLanguageCode hbuilt]
  · obtain ⟨built, hbuilt, h⟩ := bind_eq_ok.1 h
    cases h
    simp [latest, readLanguage_mecLanguageCode hbuilt]
  · cases h
    rfl

section Carried

variable {config : Config} {shown : Shown} {last : Option ℤ} {toggle includeLongPs : Bool}
  {longPs : Option Text} {elements : List Element}

/-- The payload leaves the encoder with the configured language; with code 0 when there is none
any more, and with what it had when there was none before. -/
theorem languageCode_of_carries
    (h : Carries config shown last toggle includeLongPs longPs elements) :
    Payload.languageCode (.uecp elements) =
      config.languageCode.elim (last.map fun _ => 0) fun code => some code.toNat := by
  obtain ⟨ecc, language, hecc, hlanguage, helements⟩ := h.labelling
  have hnone : latest readLanguage ecc = none := by
    rw [HexField.element] at hecc
    split_ifs at hecc
    · cases hecc
      rfl
    · simp only [bind_eq_ok] at hecc
      obtain ⟨n, -, built, hbuilt, hecc⟩ := hecc
      cases hecc
      exact latest_eq_none (by simpa using readLanguage_mecEcc hbuilt)
  rw [Payload.languageCode, Payload.elements, ← latest_readLanguage, helements, latest_append,
    hnone, Option.or_none]
  exact latest_languageElements hlanguage

theorem toggles_of_carries (h : Carries config shown last toggle includeLongPs longPs elements) :
    toggles elements ↔ toggle = true := by
  rw [toggles, h.radioText]
  cases toggle <;> simp [mecRt, flag, bitField]

end Carried

/-! ## What is committed -/

/-- The committed values are those of the last success; those of Long PS are of the last one while
it was managed, or forgotten. -/
structure Committed (m : Manager) (history : List Record) : Prop where
  ps : m.lastSentPs = (lastSuccess history).map fun r => r.tick.shown.ps
  rt : m.lastSentRt = (lastSuccess history).map fun r => r.tick.shown.rt.text
  language : m.lastSentLanguageCode = (lastSuccess history).bind fun r => r.tick.config.languageCode
  longPs : ∀ enabled, m.lastSentLongPsEnabled = some enabled → ∃ r, lastManaged history = some r ∧
    enabled = r.tick.config.longPsEnabled ∧ m.lastSentLongPs = r.tick.longPsContent

/-- The fields that are committed. -/
structure Manager.SameSent (m m' : Manager) : Prop where
  ps : m'.lastSentPs = m.lastSentPs
  rt : m'.lastSentRt = m.lastSentRt
  language : m'.lastSentLanguageCode = m.lastSentLanguageCode
  longPsEnabled : m'.lastSentLongPsEnabled = m.lastSentLongPsEnabled
  longPs : m'.lastSentLongPs = m.lastSentLongPs

theorem Manager.SameSent.refl (m : Manager) : m.SameSent m := ⟨rfl, rfl, rfl, rfl, rfl⟩

theorem Manager.SameSent.trans {m m' m'' : Manager} (h : m.SameSent m') (h' : m'.SameSent m'') :
    m.SameSent m'' :=
  ⟨h'.ps.trans h.ps, h'.rt.trans h.rt, h'.language.trans h.language,
    h'.longPsEnabled.trans h.longPsEnabled, h'.longPs.trans h.longPs⟩

variable {nfc : Text → Text} {m : Manager} {t : Tick} {history : List Record}

theorem sameSent_resendRtPlus (m : Manager) (t : Tick) : m.SameSent (m.resendRtPlus t).1 := by
  unfold Manager.resendRtPlus
  split
  · split
    · exact .refl m
    · split
      · exact .refl m
      · exact ⟨rfl, rfl, rfl, rfl, rfl⟩
  · exact .refl m

theorem sameSent_sendCtState (m : Manager) (t : Tick) (due : Bool) :
    m.SameSent (m.sendCtState t due).1 := by
  unfold Manager.sendCtState
  split
  · split
    · exact .refl m
    · exact ⟨rfl, rfl, rfl, rfl, rfl⟩
  · exact .refl m

theorem sameSent_sendCt (m : Manager) (t : Tick) : m.SameSent (m.sendCt t).1 := by
  unfold Manager.sendCt
  split
  · split
    · exact .refl m
    · split
      · exact .refl m
      · exact ⟨rfl, rfl, rfl, rfl, rfl⟩
  · exact .refl m

/-- Only the full payload commits anything. -/
theorem sameSent_tick (nfc : Text → Text) (m : Manager) (t : Tick) :
    ((m.resolved t).sendFull t nfc).1.SameSent (m.tick t nfc).1 :=
  ((sameSent_resendRtPlus _ t).trans (sameSent_sendCtState _ t _)).trans (sameSent_sendCt _ t)

theorem tick_full (nfc : Text → Text) (m : Manager) (t : Tick) :
    (m.tick t nfc).2.full = ((m.resolved t).sendFull t nfc).2 := rfl

theorem tick_tick (nfc : Text → Text) (m : Manager) (t : Tick) : (m.tick t nfc).2.tick = t := rfl

/-- What a tick does about the full payload: nothing, a success, or a failure. -/
theorem sendFull_cases (nfc : Text → Text) (m : Manager) (t : Tick) :
    m.gateOpens t = false ∧ m.sendFull t nfc = (m, none) ∨
      m.gateOpens t = true ∧ (∃ payload, m.buildPayload t nfc = .ok payload ∧
        m.sendFull t nfc = ((m.markUp t).commit t, some ⟨.ok payload, true⟩)) ∨
      m.gateOpens t = true ∧ (∃ built, m.sendFull t nfc = (m.markDown, some ⟨built, false⟩) ∧
        built = m.buildPayload t nfc) := by
  cases hgate : m.gateOpens t with
  | false =>
    left
    exact ⟨rfl, by rw [Manager.sendFull, hgate]; rfl⟩
  | true =>
    right
    rw [Manager.sendFull, if_pos hgate, Manager.send]
    cases hbuilt : m.buildPayload t nfc with
    | error error => exact .inr ⟨rfl, _, rfl, rfl⟩
    | ok payload =>
      cases hfails : t.sendFails with
      | true => exact .inr ⟨rfl, _, rfl, rfl⟩
      | false => exact .inl ⟨rfl, payload, rfl, rfl⟩

theorem Committed.resolved (h : Committed m history) (t : Tick) :
    Committed (m.resolved t) history := by
  rw [Manager.resolved]
  split_ifs with hmanaged
  · exact h
  · exact ⟨h.ps, h.rt, h.language, by simp⟩

theorem Committed.sameSent {m' : Manager} (h : Committed m history) (hsame : m.SameSent m') :
    Committed m' history := by
  constructor
  case ps => rw [hsame.ps, h.ps]
  case rt => rw [hsame.rt, h.rt]
  case language => rw [hsame.language, h.language]
  case longPs =>
    intro enabled henabled
    rw [hsame.longPsEnabled] at henabled
    rw [hsame.longPs]
    exact h.longPs enabled henabled

theorem lastSuccess_concat (history : List Record) (r : Record) :
    lastSuccess (history ++ [r]) = r.success.or (lastSuccess history) := latest_concat ..

theorem lastManaged_concat (history : List Record) (r : Record) :
    lastManaged (history ++ [r]) = r.managedSuccess.or (lastManaged history) := latest_concat ..

/-- A tick without success leaves the last one where it was. -/
theorem Committed.concat_failure (h : Committed m history) (hr : r.delivered = none) :
    Committed m (history ++ [r]) := by
  have hsuccess : r.success = none := by rw [Record.success, hr]; rfl
  have hmanaged : r.managedSuccess = none := by
    rw [Record.managedSuccess, hsuccess, ite_self]
  have hlast : lastSuccess (history ++ [r]) = lastSuccess history := by
    rw [lastSuccess_concat, hsuccess, Option.none_or]
  have hlastManaged : lastManaged (history ++ [r]) = lastManaged history := by
    rw [lastManaged_concat, hmanaged, Option.none_or]
  exact ⟨by rw [hlast, h.ps], by rw [hlast, h.rt], by rw [hlast, h.language],
    by rw [hlastManaged]; exact h.longPs⟩

theorem Committed.concat_success (h : Committed m history)
    (hr : r.delivered = some payload) (htick : r.tick = t) :
    Committed ((m.markUp t).commit t) (history ++ [r]) := by
  have hsuccess : r.success = some r := by rw [Record.success, hr]; rfl
  have hlast : lastSuccess (history ++ [r]) = some r := by
    rw [lastSuccess_concat, hsuccess, Option.some_or]
  have hmarked : m.SameSent (m.markUp t) := by
    rw [Manager.markUp]
    split_ifs
    · exact .refl m
    · exact ⟨rfl, rfl, rfl, rfl, rfl⟩
  constructor
  case ps => rw [hlast, ← htick]; rfl
  case rt => rw [hlast, ← htick]; rfl
  case language => rw [hlast, ← htick]; rfl
  case longPs =>
    intro enabled henabled
    cases hmanaged : t.config.longPsManaged with
    | true =>
      have hlastManaged : lastManaged (history ++ [r]) = some r := by
        rw [lastManaged_concat, Record.managedSuccess, htick, hmanaged, if_pos rfl, hsuccess,
          Option.some_or]
      simp only [Manager.commit, hmanaged, if_true, Option.some.injEq] at henabled
      refine ⟨r, hlastManaged, ?_, ?_⟩
      · rw [htick, henabled]
      · simp only [Manager.commit, hmanaged, if_true, htick]
    | false =>
      have hlastManaged : lastManaged (history ++ [r]) = lastManaged history := by
        rw [lastManaged_concat, Record.managedSuccess, htick, hmanaged, if_neg (by decide),
          Option.none_or]
      simp only [Manager.commit, hmanaged, Bool.false_eq_true, if_false] at henabled ⊢
      rw [hlastManaged, hmarked.longPs]
      rw [hmarked.longPsEnabled] at henabled
      exact h.longPs enabled henabled

theorem committed_tick (h : Committed m history) (nfc : Text → Text) (t : Tick) :
    Committed (m.tick t nfc).1 (history ++ [(m.tick t nfc).2]) := by
  refine Committed.sameSent ?_ (sameSent_tick nfc m t)
  have hresolved := h.resolved t
  have hfull := tick_full nfc m t
  rcases sendFull_cases nfc (m.resolved t) t with
    ⟨-, hclosed⟩ | ⟨-, payload, -, hsent⟩ | ⟨-, built, hfailed, -⟩
  · rw [hclosed] at hfull ⊢
    exact hresolved.concat_failure (by rw [Record.delivered, hfull]; rfl)
  · rw [hsent] at hfull ⊢
    exact hresolved.concat_success (show _ = some payload by rw [Record.delivered, hfull]; rfl) rfl
  · rw [hfailed] at hfull ⊢
    have hdown : Committed (m.resolved t).markDown history :=
      hresolved.sameSent ⟨rfl, rfl, rfl, rfl, rfl⟩
    exact hdown.concat_failure (by rw [Record.delivered, hfull]; rfl)

theorem committed_run (nfc : Text → Text) (ticks : List Tick) :
    Committed (run (World.step nfc) ticks .new).manager
      (run (World.step nfc) ticks .new).history :=
  Runs.invariant (P := fun _ _ => True) (I := fun w : World => Committed w.manager w.history)
    (fun t w _ h => committed_tick h nfc t) ⟨rfl, rfl, rfl, by simp [World.new, Manager.new]⟩
    (Runs.throughout_true ticks _)

/-! ## The guarantees of a tick -/

/-- Something is to be shown that is not what was last sent. -/
def Differs (history : List Record) (t : Tick) : Prop :=
  (lastSuccess history).map (fun r => r.tick.shown.ps) ≠ some t.shown.ps ∨
    (lastSuccess history).map (fun r => r.tick.shown.rt.text) ≠ some t.shown.rt.text ∨
    (lastSuccess history).map (fun r => r.tick.config.languageCode) ≠ some t.config.languageCode ∨
    t.config.longPsManaged = true ∧
      (lastManaged history).map (fun r => r.tick.longPsContent) ≠ some t.longPsContent

/-- What a tick sends, by what was sent before it. -/
structure Record.Sound (history : List Record) (r : Record) : Prop where
  /-- A/B is toggled with a RadioText that is not that of the last success. -/
  toggle : ∀ elements, r.delivered = some (.uecp elements) →
    (toggles elements ↔ (lastSuccess history).map (fun s => s.tick.shown.rt.text) ≠
      some r.tick.shown.rt.text)
  attempt : Differs history r.tick → r.full.isSome = true
  /-- A language that the encoder still has is cleared if the last success had a language. -/
  clear : ∀ elements code, r.delivered = some (.uecp elements) →
    deliveredLanguage history = some code → code ≠ 0 → r.tick.config.languageCode = none →
    (Payload.languageCode (.uecp elements) = some 0 ↔
      ∃ s, lastSuccess history = some s ∧ s.tick.config.languageCode ≠ none)
  /-- It is cleared once. -/
  settled : ∀ before cleared after elements, history = before ++ cleared :: after →
    cleared.delivered.isSome = true → cleared.tick.config.languageCode = none →
    (∀ s ∈ after, s.tick.config.languageCode = none) → r.tick.config.languageCode = none →
    r.attempted = some (.uecp elements) → Payload.languageCode (.uecp elements) = none
  unmanaged : r.tick.config.longPsManaged = false → withCommand 0x21 r.elements = []
  managed : ∀ elements, r.delivered = some (.uecp elements) →
    r.tick.config.longPsManaged = true →
    withCommand 0x21 elements = [mecLongPs r.tick.longPsContent]

/-- Without an attempt nothing has changed. -/
theorem not_differs_of_closed (h : Committed m history) (hclosed : m.gateOpens t = false) :
    ¬Differs history t := by
  simp only [Manager.gateOpens, decide_eq_false_iff_not, not_or] at hclosed
  have hchanged := hclosed.1
  simp only [Manager.changed, Manager.rtChanged, Manager.longPsChanged, decide_eq_true_eq, not_or,
    not_not, not_and] at hchanged
  obtain ⟨hps, hrt, hlanguage, hlongPs⟩ := hchanged
  rw [h.ps] at hps
  rw [h.rt] at hrt
  rw [h.language] at hlanguage
  rintro (hne | hne | hne | ⟨hmanaged, hne⟩)
  · exact hne hps
  · exact hne hrt
  · obtain ⟨s, hs, -⟩ := Option.map_eq_some_iff.1 hps
    rw [hs] at hlanguage hne
    exact hne (congrArg some hlanguage)
  · obtain ⟨-, henabled, htext⟩ := hlongPs hmanaged
    obtain ⟨s, hs, hsame, hcontent⟩ := h.longPs _ henabled
    refine hne ?_
    rw [hs, Option.map_some, ← hcontent]
    cases hon : t.config.longPsEnabled with
    | true =>
      rw [(htext hon).1, Tick.longPsContent, if_pos ⟨hmanaged, hon⟩]
    | false =>
      rw [hcontent, Tick.longPsContent, Tick.longPsContent, if_neg (by simp [← hsame, hon]),
        if_neg (by simp [hon])]

theorem Record.attempted_of_delivered
    (h : r.delivered = some payload) : r.attempted = some payload := by
  obtain ⟨full, hfull, hok⟩ := Option.bind_eq_some_iff.1 h
  split_ifs at hok
  exact Option.bind_eq_some_iff.2 ⟨full, hfull, hok⟩

theorem built_of_attempted (h : (m.tick t nfc).2.attempted = some payload) :
    (m.resolved t).buildPayload t nfc = .ok payload := by
  rw [Record.attempted, tick_full] at h
  rcases sendFull_cases nfc (m.resolved t) t with
    ⟨-, hclosed⟩ | ⟨-, built, hbuilt, hsent⟩ | ⟨-, built, hfailed, hbuilt⟩
  · rw [hclosed] at h
    cases h
  · rw [hsent] at h
    cases h
    exact hbuilt
  · rw [hfailed] at h
    rw [← hbuilt]
    cases built with
    | error error => cases h
    | ok value =>
      cases h
      rfl

theorem payload_of_attempted {elements : List Element}
    (h : (m.tick t nfc).2.attempted = some (.uecp elements)) :
    Carries t.config t.shown (m.resolved t).lastSentLanguageCode ((m.resolved t).rtChanged t)
        t.config.longPsManaged t.longPsContent elements ∧
      withCommand 0x02 elements = [mecPs t.shown.ps] ∧ ∀ e ∈ elements, e.length ≤ 255 := by
  have hbuilt := built_of_attempted h
  rw [Manager.buildPayload] at hbuilt
  cases hprotocol : t.config.protocol with
  | uecp =>
    rw [hprotocol] at hbuilt
    obtain ⟨built, hpayload, hsame⟩ := bind_eq_ok.1 hbuilt
    cases hsame
    exact payload_of_buildUecpPayload hpayload
  | ascii =>
    rw [hprotocol] at hbuilt
    cases hbuilt

theorem carries_of_attempted {elements : List Element}
    (h : (m.tick t nfc).2.attempted = some (.uecp elements)) :
    Carries t.config t.shown (m.resolved t).lastSentLanguageCode ((m.resolved t).rtChanged t)
      t.config.longPsManaged t.longPsContent elements :=
  (payload_of_attempted h).1

theorem isElement_of_rtPlusOnly {rt : RtContent} {elements : List Element}
    (h : rtPlusOnly rt = .ok elements) : ∀ e ∈ elements, IsElement 0x24 e := by
  have hreg := isElement_mecRtPlusOdaReg
  unfold rtPlusOnly at h
  split at h
  · split_ifs at h
    · obtain ⟨built, hbuilt, h⟩ := bind_eq_ok.1 h
      cases h
      simpa [hreg] using isElement_mecRtPlusTags hbuilt
    · cases h
      simp
  · split_ifs at h
    · obtain ⟨built, hbuilt, h⟩ := bind_eq_ok.1 h
      cases h
      simpa [hreg] using isElement_mecRtPlusTagsGeneric hbuilt
    · cases h
      simp
  · cases h
    simp

theorem withCommand_resendRtPlus (m : Manager) (t : Tick) :
    withCommand 0x21 (m.resendRtPlus t).2 = [] := by
  unfold Manager.resendRtPlus
  split
  · split
    · rfl
    · rename_i elements hbuilt
      have hnone : withCommand 0x21 elements = [] :=
        withCommand_other (isElement_of_rtPlusOnly hbuilt) (by decide)
      split <;> exact hnone
  · rfl

theorem withCommand_sendCtState (m : Manager) (t : Tick) (due : Bool) :
    withCommand 0x21 (m.sendCtState t due).2 = [] := by
  unfold Manager.sendCtState
  split
  · split <;> rfl
  · rfl

theorem withCommand_sendCt (m : Manager) (t : Tick) : withCommand 0x21 (m.sendCt t).2 = [] := by
  unfold Manager.sendCt
  split
  · split
    · rfl
    · rename_i element hbuilt
      have hnone : withCommand 0x21 [element] = [] :=
        withCommand_other (by simpa using isElement_packBytes hbuilt (by simp))
          (by decide : (0x0D : Byte) ≠ 0x21)
      split <;> exact hnone
  · rfl

/-- The repeats and the clock have their own commands. -/
theorem withCommand_others (nfc : Text → Text) (m : Manager) (t : Tick) :
    withCommand 0x21 (m.tick t nfc).2.others = [] := by
  have hothers : ∃ afterFull afterResend afterCtState : Manager, ∃ due : Bool,
      (m.tick t nfc).2.others = (afterFull.resendRtPlus t).2 ++ (afterResend.sendCtState t due).2 ++
        (afterCtState.sendCt t).2 := ⟨_, _, _, _, rfl⟩
  obtain ⟨afterFull, afterResend, afterCtState, due, hothers⟩ := hothers
  rw [hothers, withCommand_append, withCommand_append, withCommand_resendRtPlus, withCommand_sendCtState,
    withCommand_sendCt]
  rfl

theorem lastSuccess_of_cleared (before : List Record) {after : List Record} {cleared : Record}
    (hcleared : cleared.delivered.isSome = true) (hnone : cleared.tick.config.languageCode = none)
    (hafter : ∀ s ∈ after, s.tick.config.languageCode = none) :
    (lastSuccess (before ++ cleared :: after)).bind (fun s => s.tick.config.languageCode) = none := by
  obtain ⟨payload, hpayload⟩ := Option.isSome_iff_exists.1 hcleared
  have hsuccess : cleared.success = some cleared := by rw [Record.success, hpayload]; rfl
  have hsame : ∀ r s : Record, r.success = some s → s = r := by
    intro r s h
    obtain ⟨_, -, rfl⟩ := Option.map_eq_some_iff.1 h
    rfl
  rw [lastSuccess, ← List.singleton_append, ← List.append_assoc, latest_append, latest_concat,
    hsuccess, Option.some_or]
  cases hlatest : latest Record.success after with
  | none => exact hnone
  | some s =>
    obtain ⟨y, hy, hys⟩ := mem_of_latest hlatest
    rw [hsame y s hys]
    exact hafter y hy

/-- The guarantees hold of every tick that starts from what was committed. -/
theorem sound_of_committed (h : Committed m history) (nfc : Text → Text) (t : Tick) :
    Record.Sound history (m.tick t nfc).2 := by
  have hresolved := h.resolved t
  constructor
  case toggle =>
    intro elements hdelivered
    rw [toggles_of_carries (carries_of_attempted (Record.attempted_of_delivered hdelivered)),
      Manager.rtChanged, decide_eq_true_eq, hresolved.rt]
    rfl
  case attempt =>
    intro hdiffers
    rw [tick_full]
    rcases sendFull_cases nfc (m.resolved t) t with
      ⟨hclosed, -⟩ | ⟨-, built, -, hsent⟩ | ⟨-, built, hfailed, -⟩
    · exact absurd hdiffers (not_differs_of_closed hresolved hclosed)
    · rw [hsent]
      rfl
    · rw [hfailed]
      rfl
  case clear =>
    intro elements code hdelivered _ _ hnone
    rw [languageCode_of_carries (carries_of_attempted (Record.attempted_of_delivered hdelivered)),
      hresolved.language]
    rw [tick_tick] at hnone
    rw [hnone, Option.elim_none]
    cases hlast : lastSuccess history with
    | none => simp
    | some s =>
      cases hlanguage : s.tick.config.languageCode with
      | none => simp [hlanguage]
      | some language => simp [hlanguage]
  case settled =>
    intro before cleared after elements hhistory hcleared hclearedNone hafter hnone hattempted
    have hlast := lastSuccess_of_cleared before hcleared hclearedNone hafter
    rw [languageCode_of_carries (carries_of_attempted hattempted), hresolved.language, hhistory,
      hlast]
    rw [tick_tick] at hnone
    rw [hnone]
    rfl
  case unmanaged =>
    intro hmanaged
    rw [tick_tick] at hmanaged
    rw [Record.elements, withCommand_append, withCommand_others, List.append_nil]
    cases hattempted : (m.tick t nfc).2.attempted with
    | none => rfl
    | some payload =>
      cases payload with
      | ascii commands => rfl
      | uecp elements =>
        have hlongPs := (carries_of_attempted hattempted).longPs
        rwa [hmanaged, if_neg (by decide)] at hlongPs
  case managed =>
    intro elements hdelivered hmanaged
    rw [tick_tick] at hmanaged ⊢
    have hlongPs := (carries_of_attempted (Record.attempted_of_delivered hdelivered)).longPs
    rwa [if_pos hmanaged] at hlongPs

/-- In every run, every tick keeps the guarantees. -/
theorem sends_sound (nfc : Text → Text) (ticks : List Tick) (t : Tick) :
    Record.Sound (run (World.step nfc) ticks .new).history
      ((run (World.step nfc) ticks .new).manager.tick t nfc).2 :=
  sound_of_committed (committed_run nfc ticks) nfc t

/-! ## A language that is never cleared -/

def sampleConfig (protocol : Protocol) (languageCode : Option ℤ) : Config where
  protocol := protocol
  piCode := ⟨[], .error .valueError⟩
  ecc := ⟨[], .error .valueError⟩
  languageCode := languageCode
  longPsManaged := false
  longPsEnabled := false
  longPsSource := codePoints "static"
  ta := false
  tp := false
  diCompressed := false
  diArtificialHead := false
  diStereo := true
  ms := true
  useRtPlus := false
  sendCt := false

def sampleTick (ps : String) (protocol : Protocol) (languageCode : Option ℤ) : Tick where
  config := sampleConfig protocol languageCode
  shown := ⟨codePoints ps, ⟨[], none, none⟩, 0, [], false⟩
  longPsText := []
  clock _ := 100
  utc := ⟨2026, 8, 4, 12, 0, 0, 0⟩
  offsetMinutes := 0
  sendFails := false
  resendFails := false
  ctStateFails := false
  ctFails := false

/-- English goes out over UECP; the language is disabled while the protocol is ASCII. -/
def sampleRun : List Tick := [sampleTick "A" .uecp (some 9), sampleTick "A" .ascii none]

theorem language_not_cleared :
    ¬∀ (nfc : Text → Text) (ticks : List Tick) (t : Tick) (elements : List Element) (code : ℕ),
      ((run (World.step nfc) ticks .new).manager.tick t nfc).2.delivered = some (.uecp elements) →
      deliveredLanguage (run (World.step nfc) ticks .new).history = some code → code ≠ 0 →
      t.config.languageCode = none → Payload.languageCode (.uecp elements) = some 0 := by
  intro h
  have hdelivered : ∃ elements,
      ((run (World.step id) sampleRun .new).manager.tick (sampleTick "B" .uecp none) id).2.delivered =
        some (.uecp elements) ∧ Payload.languageCode (.uecp elements) = none := ⟨_, rfl, rfl⟩
  obtain ⟨elements, hdelivered, hnone⟩ := hdelivered
  have hcleared := h id sampleRun (sampleTick "B" .uecp none) elements 9 hdelivered (by rfl)
    (by decide) rfl
  rw [hnone] at hcleared
  cases hcleared

/-! ## What a receiver shows -/

/-- The text of the latest element of a command, from the given byte on. -/
def display (command : Byte) (start : ℕ) (elements : List Element) : Option Text :=
  (withCommand command elements).getLast?.map fun e => (e.drop start).map decodeG0Byte

theorem decode_encodeRdsG0 (text : Text) :
    (encodeRdsG0 text).map decodeG0Byte = text.map shownChar := by
  rw [encodeRdsG0, List.map_map]
  exact List.map_congr_left fun c _ => decodeG0Byte_encodeG0Char c

/-- Every payload of every tick is framed. Over either transport a receiver reads its elements back
in order, and shows the name and the RadioText of the tick. -/
theorem payload_is_shown (nfc : Text → Text) (m : Manager) (t : Tick) {elements : List Element}
    (h : (m.tick t nfc).2.attempted = some (.uecp elements)) (siteAddress encoderAddress : ℤ)
    (sqc : ℕ) (transport : Transport) :
    ∃ payload writes, (framesFor siteAddress encoderAddress sqc elements).2 = .ok payload ∧
      transmit transport payload = .ok writes ∧
      (writes.mapM readWrite).map List.flatten = some (numbered sqc elements) ∧
      display 0x02 3 ((numbered sqc elements).map Prod.snd) =
        some ((Text.ljust 8 (t.shown.ps.take 8)).map shownChar) ∧
      display 0x0A 5 ((numbered sqc elements).map Prod.snd) =
        some ((t.shown.rt.text.take 64).map shownChar) := by
  obtain ⟨hcarries, hname, hfits⟩ := payload_of_attempted h
  obtain ⟨payload, writes, hbuilt, hwrites, hread⟩ := transmit_read hfits sqc transport
  rw [snd_numbered, display, display, hname, hcarries.radioText]
  exact ⟨payload, writes, hbuilt, hwrites, hread, congrArg some (decode_encodeRdsG0 _),
    congrArg some (decode_encodeRdsG0 _)⟩

theorem payload_is_shown_sample : ∃ elements,
    display 0x02 3 ((numbered 254 elements).map Prod.snd) = some (codePoints "A       ") := by
  have h : ∃ elements, ((Manager.new.tick (sampleTick "A" .uecp (some 9)) id).2.attempted =
      some (.uecp elements)) := ⟨_, rfl⟩
  obtain ⟨elements, h⟩ := h
  obtain ⟨payload, writes, -, -, -, hname, -⟩ :=
    payload_is_shown id Manager.new (sampleTick "A" .uecp (some 9)) h 1 2 254 .udp
  exact ⟨elements, hname⟩

end IsadoraAir.Rbds
