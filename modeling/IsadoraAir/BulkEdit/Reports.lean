import IsadoraAir.BulkEdit.Requests
import IsadoraAir.Foundation.Ledgers

/-!
# Reports

A report lists every requested Track once, and as updated exactly if it was
written: unless a commit has raised after its Track had been put into the report.
-/

namespace IsadoraAir.BulkEdit

open Routine (Heeds Uses)

variable {changes : Changes} {token : Option Token} {session : String} {user : ℕ}

/-- The transaction has written its Track. -/
def Result.wrote : Result → Bool
  | .ended (.updated _) commit => commit ≠ .refused
  | _ => false

/-- The transaction has ended before its commit, or its commit has not raised. -/
def Result.settled : Result → Bool
  | .raised _ => true
  | .ended _ commit => commit = .done

def Result.isUnchanged : Result → Bool
  | .ended .unchanged _ => true
  | _ => false

/-- The Tracks that a report names; the unchanged ones are only counted. -/
def Report.listed (r : Report) : List ℕ :=
  r.updated ++ r.refused.map Prod.fst ++ r.stale ++ r.failed.map Prod.fst ++ r.missing

/-- Each requested Track is reported in one way, and as updated exactly if it was written. -/
structure Report.Exact (selection : Selection) (results : List (ℕ × Result)) (r : Report) :
    Prop where
  once : r.listed.Nodup
  requested : r.listed ⊆ selection.ids ++ selection.missing
  unlisted : ∀ id ∈ selection.ids ++ selection.missing,
    id ∉ r.listed ↔ ∃ result, (id, result) ∈ results ∧ result.isUnchanged = true
  all : r.listed.length + r.unchanged = (selection.ids ++ selection.missing).length
  updated : ∀ id, id ∈ r.updated ↔ ∃ result, (id, result) ∈ results ∧ result.wrote = true

variable {id : ℕ} {result : Result} {r : Report} {results : List (ℕ × Result)}
  {selection : Selection}

/-! ## One Track -/

theorem note_listed (r : Report) (id : ℕ) (h : result.settled = true) :
    (r.note id result).listed.Perm (if result.isUnchanged then r.listed else id :: r.listed) := by
  cases result with
  | raised raised =>
    cases raised <;>
      simp [Report.note, Report.fail, Report.listed, Result.isUnchanged, List.perm_iff_count,
        List.count_cons] <;> omega
  | ended d commit =>
    obtain rfl : commit = .done := by simpa [Result.settled] using h
    cases d <;>
      simp [Report.note, Report.dispose, Report.listed, Result.isUnchanged, List.perm_iff_count,
        List.count_cons] <;> omega

/-- A Track whose commit raises is reported twice. -/
theorem note_count (r : Report) (id : ℕ) (result : Result) :
    (r.note id result).listed.length + (r.note id result).unchanged =
    r.listed.length + r.unchanged + 1 + if result.settled then 0 else 1 := by
  cases result with
  | raised raised =>
    cases raised <;> simp [Report.note, Report.fail, Report.listed, Result.settled] <;> omega
  | ended d commit =>
    cases d <;> cases commit <;>
      simp [Report.note, Report.fail, Report.dispose, Report.listed, Result.settled] <;> omega

theorem mem_note_updated {other : ℕ} (h : result.settled = true) :
    other ∈ (r.note id result).updated ↔
      other ∈ r.updated ∨ other = id ∧ result.wrote = true := by
  cases result with
  | raised raised => cases raised <;> simp [Report.note, Report.fail, Result.wrote]
  | ended d commit =>
    obtain rfl : commit = .done := by simpa [Result.settled] using h
    cases d <;> simp [Report.note, Report.dispose, Result.wrote]

theorem note_missing (r : Report) (id : ℕ) (result : Result) :
    (r.note id result).missing = r.missing ∨
    (r.note id result).missing = r.missing ++ [id] := by
  cases result with
  | raised raised => cases raised <;> simp [Report.note, Report.fail]
  | ended d commit =>
    cases d <;> cases commit <;> simp [Report.note, Report.fail, Report.dispose]

/-! ## All Tracks -/

/-- The Tracks that are not only counted. -/
def named (results : List (ℕ × Result)) : List ℕ :=
  (results.filter fun item => !item.2.isUnchanged).map Prod.fst

theorem noteAll_listed (h : ∀ item ∈ results, item.2.settled = true) :
    (r.noteAll results).listed.Perm (r.listed ++ named results) := by
  induction results generalizing r with
  | nil => simp [Report.noteAll, named]
  | cons item results ih =>
    obtain ⟨hitem, hresults⟩ := List.forall_mem_cons.mp h
    refine (ih hresults).trans ?_
    have hnote := note_listed r item.1 hitem
    by_cases hunchanged : item.2.isUnchanged = true
    · rw [if_pos hunchanged] at hnote
      have hsame : named (item :: results) = named results := by simp [named, hunchanged]
      rw [hsame]
      exact hnote.append_right _
    · rw [if_neg hunchanged] at hnote
      have hcons : named (item :: results) = item.1 :: named results := by
        simp [named, hunchanged]
      rw [hcons]
      exact (hnote.append_right _).trans List.perm_middle.symm

theorem noteAll_count :
    (r.noteAll results).listed.length + (r.noteAll results).unchanged =
      r.listed.length + r.unchanged + results.length +
        results.countP fun item => !item.2.settled := by
  induction results generalizing r with
  | nil => rfl
  | cons item results ih =>
    have hnote := note_count r item.1 item.2
    have hrest := ih (r := r.note item.1 item.2)
    rw [List.countP_cons, List.length_cons]
    change ((r.note item.1 item.2).noteAll results).listed.length +
      ((r.note item.1 item.2).noteAll results).unchanged = _
    rw [hrest, hnote]
    cases item.2.settled <;> simp <;> omega

theorem mem_noteAll_updated (h : ∀ item ∈ results, item.2.settled = true) :
    id ∈ (r.noteAll results).updated ↔
      id ∈ r.updated ∨ ∃ result, (id, result) ∈ results ∧ result.wrote = true := by
  induction results generalizing r with
  | nil => simp [Report.noteAll]
  | cons item results ih =>
    obtain ⟨hitem, hresults⟩ := List.forall_mem_cons.mp h
    refine (ih hresults).trans ?_
    rw [mem_note_updated hitem, or_assoc]
    refine or_congr_right ⟨?_, ?_⟩
    · rintro (⟨rfl, hwrote⟩ | ⟨result, hmem, hwrote⟩)
      · exact ⟨item.2, List.mem_cons_self, hwrote⟩
      · exact ⟨result, List.mem_cons_of_mem _ hmem, hwrote⟩
    · rintro ⟨result, hmem, hwrote⟩
      rcases List.mem_cons.mp hmem with rfl | hmem
      · exact .inl ⟨rfl, hwrote⟩
      · exact .inr ⟨result, hmem, hwrote⟩

theorem noteAll_missing :
    (r.noteAll results).missing.Sublist (r.missing ++ results.map Prod.fst) := by
  induction results generalizing r with
  | nil => simp [Report.noteAll]
  | cons item results ih =>
    refine (ih (r := r.note item.1 item.2)).trans ?_
    rcases note_missing r item.1 item.2 with heq | heq
    · rw [heq]
      exact (List.Sublist.refl _).append (List.sublist_cons_self _ _)
    · rw [heq, List.append_assoc]
      rfl

/-! ## The answer -/

theorem answer_listed (h : r.missing.Nodup) : r.answer.listed.Perm r.listed := by
  have hmissing : r.answer.missing.Perm r.missing := by
    simp only [Report.answer, h.dedup]
    exact List.perm_insertionSort ..
  exact hmissing.append_left _

variable (selection results) in
/-- The report before its answer. -/
abbrev noted : Report := (Report.start selection.missing).noteAll results

theorem noted_missing (h : results.map Prod.fst = selection.ids) :
    (noted results selection).missing.Nodup := by
  refine List.Nodup.sublist noteAll_missing ?_
  rw [h]
  exact List.perm_append_comm.nodup_iff.mp selection.nodup

theorem report_listed (h : results.map Prod.fst = selection.ids) :
    (report selection.missing results).listed.Perm (noted results selection).listed :=
  answer_listed (noted_missing h)

/-- Every requested Track is counted once, and every raising commit once more. -/
theorem report_count (h : results.map Prod.fst = selection.ids) :
    (report selection.missing results).listed.length +
        (report selection.missing results).unchanged =
      (selection.ids ++ selection.missing).length +
        results.countP fun item => !item.2.settled := by
  have hstart : (Report.start selection.missing).listed.length +
      (Report.start selection.missing).unchanged = selection.missing.length := rfl
  rw [(report_listed h).length_eq]
  refine noteAll_count.trans ?_
  rw [hstart, ← h, List.length_append, List.length_map]
  omega

/-- With one result for each Track, the unchanged ones are those that are not named. -/
theorem not_mem_named (hnodup : (results.map Prod.fst).Nodup) (hid : id ∈ results.map Prod.fst) :
    id ∉ named results ↔ ∃ result, (id, result) ∈ results ∧ result.isUnchanged = true := by
  constructor
  · intro h
    obtain ⟨⟨id, result⟩, hmem, rfl⟩ := List.mem_map.mp hid
    refine ⟨result, hmem, ?_⟩
    by_contra hnamed
    exact h (List.mem_map.mpr ⟨(id, result), List.mem_filter.mpr ⟨hmem, by simpa using hnamed⟩, rfl⟩)
  · rintro ⟨result, hmem, hunchanged⟩ h
    obtain ⟨⟨id', result'⟩, hmem', rfl⟩ := List.mem_map.mp h
    obtain ⟨hmem', hnamed⟩ := List.mem_filter.mp hmem'
    have heq := List.inj_on_of_nodup_map hnodup hmem' hmem rfl
    cases heq
    simp [hunchanged] at hnamed

theorem report_exact (h : results.map Prod.fst = selection.ids) :
    (report selection.missing results).Exact selection results ↔
      ∀ item ∈ results, item.2.settled = true := by
  have hcount := report_count h
  constructor
  · intro hexact item hitem
    have hzero : (results.countP fun item => !item.2.settled) = 0 := by
      have := hexact.all
      omega
    simpa using List.countP_eq_zero.mp hzero item hitem
  · intro hsettled
    have hzero : (results.countP fun item => !item.2.settled) = 0 :=
      List.countP_eq_zero.mpr fun item hitem => by simp [hsettled item hitem]
    have hlisted : (report selection.missing results).listed.Perm
        (selection.missing ++ named results) := (report_listed h).trans (noteAll_listed hsettled)
    have hnamed : (named results).Sublist selection.ids := h ▸ List.filter_sublist.map _
    have hnodup : (selection.missing ++ selection.ids).Nodup :=
      List.perm_append_comm.nodup_iff.mp selection.nodup
    refine ⟨?_, fun id hid => ?_, fun id hid => ?_, ?_, fun id => ?_⟩
    · exact hlisted.nodup_iff.mpr (hnodup.sublist ((List.Sublist.refl _).append hnamed))
    · rcases List.mem_append.mp (hlisted.mem_iff.mp hid) with hid | hid
      · exact List.mem_append_right _ hid
      · exact List.mem_append_left _ (hnamed.subset hid)
    · rw [hlisted.mem_iff, List.mem_append, not_or]
      rcases List.mem_append.mp hid with hid | hid
      · have hmissing : id ∉ selection.missing :=
          fun hmem => List.disjoint_of_nodup_append hnodup hmem hid
        rw [and_iff_right hmissing]
        exact not_mem_named (h ▸ (List.nodup_append.mp hnodup).2.1) (h ▸ hid)
      · refine iff_of_false (fun hnot => hnot.1 hid) ?_
        rintro ⟨result, hmem, -⟩
        have hids : id ∈ selection.ids := h ▸ List.mem_map_of_mem (f := Prod.fst) hmem
        exact List.disjoint_of_nodup_append hnodup hid hids
    · rw [hcount, hzero, Nat.add_zero]
    · exact (mem_noteAll_updated hsettled).trans (by simp [Report.start])

/-! ## The report of an apply -/

section Histories

variable {ρ : Type} {cfg : Config} {β : Type} {d : History (Action.Result (ρ := ρ))}

/-- What the transaction of a Track has come to. -/
def editResult : (x : Action ρ) → x.Result → Option (ℕ × Result)
  | .edit _ id _, r => some (id, r.1)
  | _, _ => none

def editResults (d : History (Action.Result (ρ := ρ))) : List (ℕ × Result) :=
  d.filterMap fun step => editResult step.1 step.2

theorem editResults_append (later : History (Action.Result (ρ := ρ))) :
    editResults (d ++ later) = editResults d ++ editResults later :=
  List.filterMap_append

/-- Everything but the transactions of the Tracks. -/
def EditsNothing : Action ρ → Prop
  | .edit _ _ _ => False
  | _ => True

theorem EditsNothing.editResult {x : Action ρ} (h : EditsNothing x) (r : x.Result) :
    editResult x r = none := by
  cases x with
  | edit job id known => exact h.elim
  | _ => rfl

/-- A part of an apply that edits no Track. -/
theorem editsNothing_heeds {m : Service ρ β} (hm : m.Uses EditsNothing) :
    m.Heeds (fun _ _ => True) d fun _ d' => editResults d' = editResults d := by
  refine (Heeds.of_uses hm fun _ _ _ => trivial).mono fun r d' h => ?_
  obtain ⟨later, rfl, hlater⟩ := h
  have hnone : editResults later = [] :=
    List.filterMap_eq_nil_iff.mpr fun step hstep => (hlater step hstep).editResult step.2
  rw [editResults_append, hnone, List.append_nil]

theorem redeem_uses :
    (redeem (ρ := ρ) cfg session user token selection changes).Uses EditsNothing := by
  unfold redeem
  split
  · exact Uses.raise
  · refine Uses.bind (Uses.perform trivial) fun loaded => ?_
    split
    · exact Uses.raise
    · exact Uses.raise
    · split_ifs
      · exact Uses.raise
      · refine Uses.bind (Uses.perform trivial) fun claimed => ?_
        split
        · exact Uses.raise
        · exact Uses.raise
        · next record =>
          by_cases huser : record.user ≠ user
          · rw [if_pos huser]
            exact Uses.raise
          · rw [if_neg huser]
            refine Uses.bind (Uses.perform trivial) fun now => ?_
            split_ifs
            · exact Uses.raise
            · exact Uses.raise
            · exact Uses.raise
            · exact Uses.pure

theorem editAll_heeds {job : Job} {ids : List ℕ} {known : Dict ℕ String} :
    (editAll job ids known).Heeds (fun _ _ => True) d fun r d' => ∀ results, r = .ok results →
      editResults d' = editResults d ++ results ∧ results.map Prod.fst = ids := by
  induction ids generalizing known d with
  | nil =>
    intro results h
    cases h
    exact ⟨(List.append_nil _).symm, rfl⟩
  | cons id ids ih =>
    refine Heeds.perform_bind trivial fun edited => ?_
    refine Heeds.bind ih (fun results d' h => ?_) fun _ _ _ => fun _ h => by cases h
    obtain ⟨hresults, hids⟩ := h results rfl
    intro all h
    cases h
    refine ⟨?_, by simp [hids]⟩
    rw [hresults, editResults_append, List.append_assoc]
    rfl

/-- What an apply answers is the report of what has happened to its Tracks. -/
theorem apply_heeds :
    (apply (ρ := ρ) cfg session user token selection changes).Heeds (fun _ _ => True) []
      fun r d => ∀ answer, r = .ok answer →
        answer = report selection.missing (editResults d) ∧
          (editResults d).map Prod.fst = selection.ids := by
  refine Heeds.bind (editsNothing_heeds redeem_uses) (fun redeemed d h => ?_)
    fun _ _ _ => fun _ h => by cases h
  refine Heeds.perform_bind trivial fun targets => ?_
  have hprepared {r : (Action.prepare (ρ := ρ) redeemed.1 changes selection.ids).Result} :
      editResults (d ++ [⟨.prepare redeemed.1 changes selection.ids, r⟩]) = [] := by
    rw [editResults_append, h]
    rfl
  split
  · intro answer h
    cases h
  · refine Heeds.bind editAll_heeds (fun results d' h => ?_) fun _ _ _ => fun _ h => by cases h
    obtain ⟨hresults, hids⟩ := h results rfl
    rw [hprepared, List.nil_append] at hresults
    intro answer h
    cases h
    exact ⟨by rw [hresults], by rw [hresults, hids]⟩

end Histories

end IsadoraAir.BulkEdit
