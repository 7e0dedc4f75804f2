import REnvTools.Program.Framing

/-!
# Dispatching requests

`HandlersKeyedByMethodName` and the loop of the server over its input. What a handler does
is its own affair: a call of one is recorded with the arguments it got. The numbers of a
JSON text are only passed on, so they are of any type; reading the text is
`serde_json::from_slice`, a parameter.

SRC: crates/ret-jsonrpc/src/server.rs:18-119, lib.rs:9-10, 54-62
-/

set_option autoImplicit false

namespace REnvTools.Program

variable {ν ρ η : Type}

/-! ## JSON -/

/-- `serde_json::Value`. -/
inductive Value (ν : Type)
  | null
  | bool (b : Bool)
  | number (n : ν)
  | string (s : String)
  | array (elements : List (Value ν))
  | object (entries : List (String × Value ν))

namespace Value

/-- `Value::get` with a key; what is not an object has no keys. -/
def get (value : Value ν) (key : String) : Option (Value ν) :=
  match value with
  | object entries => entries.lookup key
  | null | bool _ | number _ | string _ | array _ => none

/-- `Value::as_str`. -/
def asStr : Value ν → Option String
  | string s => some s
  | null | bool _ | number _ | array _ | object _ => none

/-- `Value::is_null`. -/
def isNull : Value ν → Bool
  | null => true
  | bool _ | number _ | string _ | array _ | object _ => false

/-- `Value::is_string`. -/
def isString : Value ν → Bool
  | string _ => true
  | null | bool _ | number _ | array _ | object _ => false

/-- `Value::is_number`. -/
def isNumber : Value ν → Bool
  | number _ => true
  | null | bool _ | string _ | array _ | object _ => false

/-- `Value::is_array`. -/
def isArray : Value ν → Bool
  | array _ => true
  | null | bool _ | number _ | string _ | object _ => false

/-- `Value::is_object`. -/
def isObject : Value ν → Bool
  | object _ => true
  | null | bool _ | number _ | string _ | array _ => false

end Value

/-- `RequestId`. -/
abbrev RequestId (ν : Type) := Value ν

/-! ## Handlers -/

/-- `HandlersKeyedByMethodName`: the handlers of requests and of notifications, whatever
they are. -/
structure HandlersKeyedByMethodName (ρ η : Type) where
  requests : String → Option ρ
  notifications : String → Option η

/-- A call of a handler, with its arguments. -/
inductive Invocation (ν ρ η : Type)
  | request (handler : ρ) (id : RequestId ν) (params : Value ν)
  | notification (handler : η) (params : Value ν)

/-- `RequestError`. -/
structure RequestError (ν : Type) where
  id : Option (RequestId ν)
  code : ℤ
  message : String

/-- What handling a message did: the handlers it called, in order, and the error it
returned. -/
structure Handled (ν ρ η : Type) where
  invocations : List (Invocation ν ρ η)
  error : Option (RequestError ν)

/-- `handle_request`. -/
def handleRequest (handlers : HandlersKeyedByMethodName ρ η) (message : Value ν) :
    Handled ν ρ η :=
  let id := message.get "id"
  let validId := id.all fun id => id.isNull || id.isString || id.isNumber
  let method := (message.get "method").bind Value.asStr
  if (message.get "jsonrpc").bind Value.asStr ≠ some "2.0" ∨ method.isNone ∨ ¬ validId then
    ⟨[], some ⟨none, -32600, "Invalid JSON-RPC request"⟩⟩
  else
    let method := method.getD ""
    let params := (message.get "params").getD .null
    if !params.isNull && !params.isObject && !params.isArray then
      -- a notification gets no response, whatever its params are
      ⟨[], id.map fun id => ⟨some id, -32602, "Invalid params"⟩⟩
    else
      match id with
      | some id =>
        match handlers.requests method with
        | some handler => ⟨[.request handler id params], none⟩
        | none => ⟨[], some ⟨some id, -32601, "Method not found: " ++ method⟩⟩
      | none =>
        match handlers.notifications method with
        | some handler => ⟨[.notification handler params], none⟩
        | none => ⟨[], none⟩

/-! ## The loop of the server -/

/-- INTERNAL: the header section and what is after it are part of the input. -/
theorem length_of_readHeaders {headerBytes : ℕ} {contentLength length : Option ℕ}
    {input rest : List UInt8}
    (h : readHeaders headerBytes contentLength input = .ok (.headers length rest)) :
    rest.length < input.length := by
  induction headerBytes, contentLength, input using readHeaders.induct with
  | case1 contentLength input line hline =>
    rw [readHeaders, if_pos hline] at h
    cases h
  | case2 headerBytes contentLength input line hline hbytes =>
    rw [readHeaders, if_pos hline, if_neg hbytes] at h
    cases h
  | case3 headerBytes contentLength input line hline hlimit =>
    rw [readHeaders, if_neg hline, if_pos hlimit] at h
    cases h
  | case4 headerBytes contentLength input line hline hlimit e he =>
    rw [readHeaders, if_neg hline, if_neg hlimit, he] at h
    cases h
  | case5 headerBytes contentLength input line hline hlimit hend =>
    rw [readHeaders, if_neg hline, if_neg hlimit, hend] at h
    cases h
    have hlength := length_takeLine_snd (maxHeaderBytes - headerBytes + 1) input
    change line.1.length + line.2.length = input.length at hlength
    change line.2.length < input.length
    omega
  | case6 headerBytes contentLength input line hline hlimit next hnext ih =>
    rw [readHeaders, if_neg hline, if_neg hlimit, hnext] at h
    have hrest := ih h
    have hlength := length_takeLine_snd (maxHeaderBytes - headerBytes + 1) input
    change line.1.length + line.2.length = input.length at hlength
    omega

/-- INTERNAL: a message takes something of the input. -/
theorem length_of_readMessage {input body rest : List UInt8}
    (h : readMessage input = .ok (some body, rest)) : rest.length < input.length := by
  unfold readMessage at h
  split at h
  · cases h
  · cases h
  · cases h
  · rename_i length after hheaders
    split at h
    · cases h
    · rename_i hread
      cases h
      unfold readExact at hread
      split at hread
      · cases hread
      · cases hread
        have hafter := length_of_readHeaders hheaders
        rw [List.length_drop]
        omega

/-- What the loop of `serve` does with the body of one frame. -/
def serveBody (fromSlice : List UInt8 → Option (Value ν))
    (handlers : HandlersKeyedByMethodName ρ η) (body : List UInt8) : Handled ν ρ η :=
  match fromSlice body with
  | some message => handleRequest handlers message
  | none => ⟨[], some ⟨none, -32700, "Parse error"⟩⟩

/-- `serve`: what was done with each frame, and how the input ended. -/
def serve (fromSlice : List UInt8 → Option (Value ν))
    (handlers : HandlersKeyedByMethodName ρ η) (input : List UInt8) :
    List (Handled ν ρ η) × Except IoError Unit :=
  match _h : readMessage input with
  | .error e => ([], .error e)
  | .ok (none, _) => ([], .ok ())
  | .ok (some body, rest) =>
    let (handled, ending) := serve fromSlice handlers rest
    (serveBody fromSlice handlers body :: handled, ending)
termination_by input.length
decreasing_by exact length_of_readMessage _h

end REnvTools.Program
