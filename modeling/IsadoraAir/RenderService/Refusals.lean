import IsadoraAir.RenderService.Assembly

/-!
# What the parsers raise

Every check raises a declared error. The one exception is the conversion of the
timeout: an integer that is too large for a float overflows.
-/

namespace IsadoraAir.RenderService.Protocol

/-- A `ProtocolError` with a code of the table. -/
def Declared (e : Error) : Prop := ∃ code message, e = .protocolError code message ∧ code ∈ codes

/-- The timeout is an integer that no float is near to. -/
def HugeTimeout (request : WireValue) : Prop :=
  ∃ n, request.field (codePoints "timeout") = .int n ∧ 2 ^ 1024 - 2 ^ 970 ≤ |n|

/-- A declared error, or the overflow of a huge timeout. -/
def Refuses (request : WireValue) (e : Error) : Prop :=
  Declared e ∨ e = .overflowError ∧ HugeTimeout request

theorem declared_invalid (message : Text) : Declared (invalid message) :=
  ⟨_, message, rfl, by decide⟩

theorem declared_wrong (what : Text) (rest : String) : Declared (wrong what rest) :=
  declared_invalid _

theorem declared_inputOrder (message : String) : Declared (inputOrder message) :=
  ⟨_, codePoints message, rfl, by decide⟩

variable {digit : Char → Option (Fin 10)} {maxBytes : ℤ} {maxSeconds : ℚ}

theorem uuidText_raises (value : WireValue) (what : Text) :
    Raises Declared (uuidText digit value what) :=
  .orRaise (declared_wrong _ _)

theorem decimal_raises (value : WireValue) (what : Text) :
    Raises Declared (decimal digit value what maxSeconds) := by
  refine (Raises.orRaise (declared_wrong _ _)).bind fun text => ?_
  refine (Raises.raiseIf (declared_wrong _ _)).bind fun _ => ?_
  exact (Raises.orRaise (declared_wrong _ _)).bind fun number => .orRaise (declared_wrong _ _)

theorem count_raises (value : WireValue) (what : Text) :
    Raises Declared (count value what maxBytes) := by
  refine (Raises.orRaise (declared_wrong _ _)).bind fun n => ?_
  exact (Raises.raiseIf (declared_wrong _ _)).bind fun _ => .ok _

theorem media_raises (entry : WireValue) (what : Text) (keys : List String) :
    Raises Declared (media digit entry what keys maxBytes maxSeconds) := by
  refine (Raises.raiseIf (declared_wrong _ _)).bind fun _ => ?_
  refine (Raises.orRaise (declared_wrong _ _)).bind fun sha256 => ?_
  refine (uuidText_raises _ _).bind fun u => ?_
  refine (count_raises _ _).bind fun n => ?_
  exact (decimal_raises _ _).bind fun d => .ok _

theorem checkTimeout_raises (x : Double) : Raises Declared (checkTimeout x) :=
  (Raises.raiseIf (declared_invalid _)).bind fun _ => .ok _

theorem timeoutOf_raises (request : WireValue) :
    Raises (Refuses request) (timeoutOf (request.field (codePoints "timeout"))) := by
  cases hvalue : request.field (codePoints "timeout") with
  | int n =>
    refine Raises.bind ?_ fun x => (checkTimeout_raises x).mono fun _ => .inl
    intro e he
    obtain ⟨hnone, rfl⟩ := orRaise_eq_error.mp he
    refine .inr ⟨rfl, n, hvalue, ?_⟩
    unfold ofInt at hnone
    split_ifs at hnone with hsmall
    exact not_lt.mp hsmall
  | float x => exact (checkTimeout_raises x).mono fun _ => .inl
  | _ =>
    intro e he
    cases he
    exact .inl (declared_invalid _)

theorem checkHead_raises (request : WireValue) (keys : List String) (op : String) :
    Raises Declared (checkHead request keys op) := by
  refine (Raises.raiseIf (declared_invalid _)).bind fun _ => ?_
  exact (Raises.raiseIf (declared_invalid _)).bind fun _ => .orRaise (declared_invalid _)

theorem recipeOf_raises (value : WireValue) : Raises Declared (recipeOf value) := by
  refine (Raises.raiseIf (declared_invalid _)).bind fun _ => ?_
  exact (Raises.orRaise (declared_invalid _)).bind fun _ => .ok _

theorem digestOf_raises (value : WireValue) : Raises Declared (digestOf value) :=
  .orRaise (declared_invalid _)

theorem optionalUuid_raises (value : WireValue) (name : String) :
    Raises Declared (optionalUuid digit value name) := by
  unfold optionalUuid
  split_ifs
  · exact .ok _
  · exact (uuidText_raises _ _).bind fun _ => .ok _

theorem referenceOf_raises (references : WireValue) (name : Text) :
    Raises Declared (referenceOf digit maxBytes maxSeconds references name) := by
  refine (media_raises _ _ _).bind fun m => ?_
  refine (Raises.orRaise (declared_wrong _ _)).bind fun k => ?_
  exact (uuidText_raises _ _).bind fun u => .ok _

/-- What `parse_request` raises. -/
theorem parseRequest_raises (request : WireValue) :
    Raises (Refuses request) (parseRequest digit maxBytes maxSeconds request) := by
  have hmono : ∀ e, Declared e → Refuses request e := fun _ => .inl
  refine ((checkHead_raises _ _ _).mono hmono).bind fun requestId => ?_
  refine Raises.bind ((Raises.raiseIf (declared_invalid _)).mono hmono) fun _ => ?_
  refine ((recipeOf_raises _).mono hmono).bind fun recipe => ?_
  refine Raises.bind ((Raises.orRaise (declared_invalid _)).mono hmono) fun params => ?_
  refine Raises.bind ((Raises.raiseIf (declared_invalid _)).mono hmono) fun _ => ?_
  refine ((digestOf_raises _).mono hmono).bind fun digest => ?_
  refine (timeoutOf_raises request).bind fun timeout => ?_
  refine ((Raises.mapM (referenceOf_raises _) _).mono hmono).bind fun normalized => ?_
  refine ((optionalUuid_raises _ _).mono hmono).bind fun item => ?_
  refine ((optionalUuid_raises _ _).mono hmono).bind fun lease => ?_
  exact ((media_raises _ _ _).mono hmono).bind fun source => .ok _

theorem stingerOf_raises (entry : WireValue) (index : ℕ) :
    Raises Declared (stingerOf digit maxBytes entry index) := by
  refine (media_raises _ _ _).bind fun m => ?_
  refine (Raises.orRaise (declared_wrong _ _)).bind fun k => ?_
  refine (Raises.raiseIf (declared_inputOrder _)).bind fun _ => ?_
  exact (uuidText_raises _ _).bind fun u => .ok _

theorem messageOf_raises (seen : List UuidNumber) (entry : WireValue) (index : ℕ) :
    Raises Declared (messageOf digit maxBytes seen entry index) := by
  refine (media_raises _ _ _).bind fun m => ?_
  refine (Raises.orRaise (declared_wrong _ _)).bind fun kind => ?_
  refine (uuidText_raises _ _).bind fun u => ?_
  exact (Raises.raiseIf (declared_inputOrder _)).bind fun _ => .ok _

theorem addInput_raises (p : Progress) (item : WireValue × ℕ) :
    Raises Declared (addInput digit maxBytes p item) := by
  unfold addInput
  dsimp only
  split_ifs
  · exact (stingerOf_raises _ _).bind fun s => .ok _
  · exact (messageOf_raises _ _ _).bind fun m => .ok _
  · intro e he
    cases he
    exact declared_wrong _ _

/-- The first input and the first kind are there when they are looked at. -/
theorem checkLead_raises {stinger : Option Reference} {messages : List Message}
    (hmessages : messages ≠ []) : Raises Declared (checkLead (progressOf stinger messages)) := by
  obtain ⟨m, rest, rfl⟩ := List.exists_cons_of_ne_nil hmessages
  cases stinger with
  | none => exact .ok _
  | some s => exact Raises.raiseIf (declared_inputOrder _)

theorem checkOrder_raises (stinger : Option Reference) (messages : List Message) :
    Raises Declared (checkOrder (progressOf stinger messages)) := by
  refine (Raises.raiseIf (declared_invalid _)).bind_of_ok fun _ hcount => ?_
  have hmessages : messages ≠ [] := List.length_pos_iff.mp (not_not.mp (raiseIf_eq_ok.mp hcount)).1
  refine (Raises.raiseIf (declared_inputOrder _)).bind fun _ => ?_
  exact (checkLead_raises hmessages).bind fun _ => .raiseIf (declared_invalid _)

/-- What `parse_assemble` raises. -/
theorem parseAssemble_raises (request : WireValue) :
    Raises (Refuses request) (parseAssemble digit maxBytes request) := by
  have hmono : ∀ e, Declared e → Refuses request e := fun _ => .inl
  refine ((checkHead_raises _ _ _).mono hmono).bind fun requestId => ?_
  refine ((recipeOf_raises _).mono hmono).bind fun recipe => ?_
  refine ((digestOf_raises _).mono hmono).bind fun digest => ?_
  refine (timeoutOf_raises request).bind fun timeout => ?_
  refine Raises.bind ((Raises.raiseIf (declared_invalid _)).mono hmono) fun _ => ?_
  refine Raises.bind ((Raises.orRaise (declared_invalid _)).mono hmono) fun inputs => ?_
  refine Raises.bind ((Raises.raiseIf (declared_invalid _)).mono hmono) fun _ => ?_
  refine ((Raises.foldlM addInput_raises _ _).mono hmono).bind_of_ok fun p hp => ?_
  obtain ⟨stinger, messages, -, -, rfl⟩ := foldlM_addInput.mp hp
  refine ((checkOrder_raises stinger messages).mono hmono).bind fun _ => ?_
  exact ((uuidText_raises _ _).mono hmono).bind fun execution => .ok _

end IsadoraAir.RenderService.Protocol
