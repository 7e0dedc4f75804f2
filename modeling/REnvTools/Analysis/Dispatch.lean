import REnvTools.Analysis.Framing
import REnvTools.Program.Dispatch

/-!
# Each message is answered once

What a message is entitled to, said of the message alone (`Envelope`), and that
`handle_request` gives it this and nothing more, whatever the handlers are. The loop of the
server does so for one frame after the other.
-/

set_option autoImplicit false

namespace REnvTools.Analysis

open REnvTools.Lib REnvTools.Program

variable {ν ρ η : Type}

/-! ## Envelopes -/

/-- The values an id may have. -/
inductive IsRequestId : Value ν → Prop
  | null : IsRequestId .null
  | string (s : String) : IsRequestId (.string s)
  | number (n : ν) : IsRequestId (.number n)

/-- The message is a valid envelope, with a method and an id or none. -/
structure Envelope (message : Value ν) (method : String) (id : Option (Value ν)) : Prop where
  version : message.get "jsonrpc" = some (.string "2.0")
  valid_id : ∀ value ∈ id, IsRequestId value
  method : message.get "method" = some (.string method)
  id : message.get "id" = id

/-- The values params may not have. -/
inductive IsScalar : Value ν → Prop
  | bool (b : Bool) : IsScalar (.bool b)
  | number (n : ν) : IsScalar (.number n)
  | string (s : String) : IsScalar (.string s)

/-- The params of a message; absent ones are null. -/
def paramsOf (message : Value ν) : Value ν := (message.get "params").getD .null

/-- INTERNAL: the text of a value is that of a string. -/
theorem asStr_eq_some {value : Value ν} {s : String} :
    value.asStr = some s ↔ value = .string s := by
  cases value <;> simp [Value.asStr]

/-- INTERNAL: a text under a key is a string there. -/
theorem bind_asStr_eq_some {value : Option (Value ν)} {s : String} :
    value.bind Value.asStr = some s ↔ value = some (.string s) := by
  simp [Option.bind_eq_some_iff, asStr_eq_some]

/-- INTERNAL: the test of an id. -/
theorem isRequestId_iff {value : Value ν} :
    IsRequestId value ↔ (value.isNull || value.isString || value.isNumber) = true := by
  constructor
  · intro h
    cases h <;> rfl
  · intro h
    cases value with
    | null => exact .null
    | string s => exact .string s
    | number n => exact .number n
    | bool _ | array _ | object _ => cases h

/-- INTERNAL: the test of params. -/
theorem isScalar_iff {value : Value ν} :
    IsScalar value ↔ (!value.isNull && !value.isObject && !value.isArray) = true := by
  constructor
  · intro h
    cases h <;> rfl
  · intro h
    cases value with
    | bool b => exact .bool b
    | number n => exact .number n
    | string s => exact .string s
    | null | array _ | object _ => cases h

/-- INTERNAL: the test of an envelope. -/
theorem exists_envelope_iff {message : Value ν} :
    (∃ method id, Envelope message method id) ↔
      ¬((message.get "jsonrpc").bind Value.asStr ≠ some "2.0" ∨
        ((message.get "method").bind Value.asStr).isNone ∨
        ¬((message.get "id").all fun id => id.isNull || id.isString || id.isNumber)) := by
  constructor
  · rintro ⟨method, id, h⟩
    have hmethod := bind_asStr_eq_some.mpr h.method
    have hid : (message.get "id").all fun id => id.isNull || id.isString || id.isNumber := by
      rw [Option.all_eq_true, h.id]
      exact fun value hvalue => isRequestId_iff.mp (h.valid_id value hvalue)
    rw [bind_asStr_eq_some.mpr h.version, hmethod, hid]
    simp
  · intro h
    simp only [not_or, not_not, Option.isNone_iff_eq_none, ← ne_eq, Option.ne_none_iff_exists',
      Option.all_eq_true] at h
    obtain ⟨hversion, ⟨method, hmethod⟩, hid⟩ := h
    refine ⟨method, message.get "id", bind_asStr_eq_some.mp hversion, fun value hvalue => ?_,
      bind_asStr_eq_some.mp hmethod, rfl⟩
    exact isRequestId_iff.mpr (hid value hvalue)

/-! ## The cases of `handle_request` -/

variable (handlers : HandlersKeyedByMethodName ρ η) {message : Value ν}

/-- What is not an envelope is an invalid request. -/
theorem handleRequest_invalid (h : ¬∃ method id, Envelope message method id) :
    handleRequest handlers message =
      ⟨[], some ⟨none, -32600, "Invalid JSON-RPC request"⟩⟩ := by
  rw [exists_envelope_iff, not_not] at h
  unfold handleRequest
  exact if_pos h

/-- INTERNAL: what follows the test of the envelope. -/
def afterEnvelope (method : String) (id : Option (Value ν)) (params : Value ν) :
    Handled ν ρ η :=
  if (!params.isNull && !params.isObject && !params.isArray) = true then
    ⟨[], id.map fun id => ⟨some id, -32602, "Invalid params"⟩⟩
  else
    match id with
    | some id =>
      match handlers.requests method with
      | some handler => ⟨[.request handler id params], none⟩
      | none => ⟨[], some ⟨some id, -32601, "Method not found: " ++ method⟩⟩
    | none =>
      match handlers.notifications method with
      | some handler => ⟨[.notification handler params], none⟩
      | none => ⟨[], none⟩

/-- INTERNAL: an envelope passes the test. -/
theorem handleRequest_envelope {method : String} {id : Option (Value ν)}
    (h : Envelope message method id) :
    handleRequest handlers message =
      afterEnvelope handlers method id (paramsOf message) := by
  have hvalid := exists_envelope_iff.mp ⟨method, id, h⟩
  have hmethod := bind_asStr_eq_some.mpr h.method
  unfold handleRequest
  dsimp only
  rw [if_neg hvalid, hmethod, h.id]
  rfl

/-- The ways to answer a request. -/
inductive RequestAnswer
  | called | invalidParams | methodNotFound

/-- What each way of answering a request comes to. The params are looked at before the
method, so that a request with scalar params is answered alike whether its method is known or
not. -/
def AnsweredBy (method : String) (id params : Value ν) (handled : Handled ν ρ η) :
    RequestAnswer → Prop
  | .called => ¬IsScalar params ∧ ∃ handler, handlers.requests method = some handler ∧
      handled = ⟨[.request handler id params], none⟩
  | .invalidParams => IsScalar params ∧
      handled = ⟨[], some ⟨some id, -32602, "Invalid params"⟩⟩
  | .methodNotFound => ¬IsScalar params ∧ handlers.requests method = none ∧
      handled = ⟨[], some ⟨some id, -32601, "Method not found: " ++ method⟩⟩

/-- A request is answered, in one of the ways only. -/
theorem existsUnique_answeredBy {method : String} {id : Value ν}
    (h : Envelope message method (some id)) :
    ∃! answer, AnsweredBy handlers method id (paramsOf message)
      (handleRequest handlers message) answer := by
  rw [handleRequest_envelope handlers h]
  unfold afterEnvelope
  by_cases hscalar : IsScalar (paramsOf message)
  · rw [if_pos (isScalar_iff.mp hscalar)]
    refine ⟨.invalidParams, ⟨hscalar, rfl⟩, ?_⟩
    intro answer hanswer
    cases answer with
    | invalidParams => rfl
    | called => exact absurd hscalar hanswer.1
    | methodNotFound => exact absurd hscalar hanswer.1
  · rw [if_neg (isScalar_iff.not.mp hscalar)]
    cases hhandler : handlers.requests method with
    | some handler =>
      refine ⟨.called, ⟨hscalar, handler, hhandler, rfl⟩, ?_⟩
      intro answer hanswer
      cases answer with
      | called => rfl
      | invalidParams => exact absurd hanswer.1 hscalar
      | methodNotFound =>
        have hnone : handlers.requests method = none := hanswer.2.1
        rw [hhandler] at hnone
        cases hnone
    | none =>
      refine ⟨.methodNotFound, ⟨hscalar, hhandler, rfl⟩, ?_⟩
      intro answer hanswer
      cases answer with
      | methodNotFound => rfl
      | invalidParams => exact absurd hanswer.1 hscalar
      | called =>
        obtain ⟨-, handler, hsome, -⟩ := hanswer
        rw [hhandler] at hsome
        cases hsome

/-- A notification gets no response. With scalar params it is dropped, else the handler of its
method is called with its params, if there is one. -/
theorem handleRequest_notification {method : String} (h : Envelope message method none) :
    (handleRequest handlers message).error = none ∧
      (IsScalar (paramsOf message) → (handleRequest handlers message).invocations = []) ∧
      (¬IsScalar (paramsOf message) → (handleRequest handlers message).invocations =
        ((handlers.notifications method).map
          fun handler => .notification handler (paramsOf message)).toList) := by
  rw [handleRequest_envelope handlers h]
  unfold afterEnvelope
  by_cases hscalar : IsScalar (paramsOf message)
  · rw [if_pos (isScalar_iff.mp hscalar)]
    exact ⟨rfl, fun _ => rfl, fun hnot => absurd hscalar hnot⟩
  · rw [if_neg (isScalar_iff.not.mp hscalar)]
    cases hhandler : handlers.notifications method with
    | some handler => exact ⟨rfl, fun h => absurd h hscalar, fun _ => rfl⟩
    | none => exact ⟨rfl, fun h => absurd h hscalar, fun _ => rfl⟩

/-- A handler is called once at the most, and an error is returned only if none is. -/
theorem handleRequest_atMostOnce (message : Value ν) :
    (handleRequest handlers message).invocations.length ≤ 1 ∧
      ((handleRequest handlers message).error.isSome →
        (handleRequest handlers message).invocations = []) := by
  by_cases henvelope : ∃ method id, Envelope message method id
  · obtain ⟨method, id, henvelope⟩ := henvelope
    rw [handleRequest_envelope handlers henvelope]
    unfold afterEnvelope
    split
    · simp
    · cases id with
      | some id => cases handlers.requests method <;> simp
      | none => cases handlers.notifications method <;> simp
  · rw [handleRequest_invalid handlers henvelope]
    simp

/-- **Each message is answered once.** A handler is called once at the most, and never
beside an error; what is not an envelope is an invalid request; a notification gets no
response, and its handler is called unless its params are scalar; and a request, whatever its
id, is answered in exactly one of three ways: by the error for its params if these are scalar,
and else by the handler of its method, or by the error for the method if it has none. -/
theorem request_dispatch (handlers : HandlersKeyedByMethodName ρ η) (message : Value ν) :
    ((handleRequest handlers message).invocations.length ≤ 1 ∧
      ((handleRequest handlers message).error.isSome →
        (handleRequest handlers message).invocations = [])) ∧
    ((¬∃ method id, Envelope message method id) → handleRequest handlers message =
      ⟨[], some ⟨none, -32600, "Invalid JSON-RPC request"⟩⟩) ∧
    (∀ method, Envelope message method none →
      (handleRequest handlers message).error = none ∧
        (IsScalar (paramsOf message) → (handleRequest handlers message).invocations = []) ∧
        (¬IsScalar (paramsOf message) → (handleRequest handlers message).invocations =
          ((handlers.notifications method).map
            fun handler => .notification handler (paramsOf message)).toList)) ∧
    ∀ method id, Envelope message method (some id) →
      ∃! answer, AnsweredBy handlers method id (paramsOf message)
        (handleRequest handlers message) answer :=
  ⟨handleRequest_atMostOnce handlers message, handleRequest_invalid handlers,
    fun _ => handleRequest_notification handlers, fun _ _ => existsUnique_answeredBy handlers⟩

/-! ## The loop of the server -/

variable (fromSlice : List UInt8 → Option (Value ν))

/-- What the loop does with a frame is one call or one error at the most. -/
theorem serveBody_atMostOnce (body : List UInt8) :
    (serveBody fromSlice handlers body).invocations.length ≤ 1 ∧
      ((serveBody fromSlice handlers body).error.isSome →
        (serveBody fromSlice handlers body).invocations = []) := by
  unfold serveBody
  split
  · exact handleRequest_atMostOnce handlers _
  · simp

/-- INTERNAL: the end of the input ends the loop. -/
theorem serve_closed {input rest : List UInt8} (h : readMessage input = .ok (none, rest)) :
    serve fromSlice handlers input = ([], .ok ()) := by
  rw [serve]
  split
  · rename_i hread
    rw [h] at hread
    cases hread
  · rfl
  · rename_i hread
    rw [h] at hread
    cases hread

/-- INTERNAL: a frame is handled, and then the rest of the input. -/
theorem serve_frame {input body rest : List UInt8}
    (h : readMessage input = .ok (some body, rest)) :
    serve fromSlice handlers input =
      (serveBody fromSlice handlers body :: (serve fromSlice handlers rest).1,
        (serve fromSlice handlers rest).2) := by
  rw [serve]
  split
  · rename_i hread
    rw [h] at hread
    cases hread
  · rename_i hread
    rw [h] at hread
    cases hread
  · rename_i hread
    rw [h] at hread
    cases hread
    rfl

/-- **The server handles each frame once and in order**, until the input ends. -/
theorem serve_wire (messages : List FramedMessage) :
    serve fromSlice handlers (wire messages) =
      (messages.map fun message => serveBody fromSlice handlers message.body, .ok ()) := by
  induction messages with
  | nil => exact serve_closed handlers fromSlice readMessage_nil
  | cons message messages ih =>
    have hread := readMessage_framed message (wire messages)
    have hwire : wire (message :: messages) = message.bytes ++ wire messages := by
      simp [wire]
    rw [hwire, serve_frame handlers fromSlice hread, ih, List.map_cons]

end REnvTools.Analysis
