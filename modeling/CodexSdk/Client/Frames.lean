import CodexSdk.Client.Calls

/-!
# Frames read back

The client writes its frames as ad-hoc objects, and `classifyIncoming` tells what a frame is by
which of three members are present.  `frames_read_back` puts the two together: what is written as a
response, an error, a notification or a request is read as that.  One value gets lost on the way.
The data of an error that is `null` is written, and read as no data.
-/

set_option autoImplicit false

namespace CodexSdk

open Json

/-- An error as its frame is read: `null` data is no data. -/
def RpcError.readBack (e : RpcError) : RpcError :=
  { e with data := match e.data with
      | some .null => none
      | data => data }

theorem RpcError.readBack_eq {e : RpcError} (h : e.data ≠ some .null) : e.readBack = e := by
  obtain ⟨code, message, data⟩ := e
  rcases data with _ | d
  · rfl
  · cases d with
    | null => exact absurd rfl h
    | _ => rfl

theorem Decode.i64_ofI64 (n : Int64) : Decode.i64 (.number (.ofI64 n)) = .ok n := by
  simp [Decode.i64, Value.asI64, Number.asI64_ofI64]

/-- An error is written as an object and read from it. -/
theorem RpcError.decode_toJson (e : RpcError) : RpcError.decode e.toJson = .ok e.readBack := by
  obtain ⟨code, message, data⟩ := e
  have hcode := Decode.i64_ofI64 code
  rcases data with _ | d
  · simp [toJson, decode, readBack, Map.required, Map.optional, Map.defaulted, hcode,
      Decode.string]
    rfl
  · simp [toJson, decode, readBack, Map.required, Map.optional, Map.defaulted, hcode,
      Decode.string]
    cases d <;> rfl

theorem RequestId.toJson_injective {id id' : RequestId} (h : id.toJson = id'.toJson) :
    id = id' := by
  have hdecode := RequestId.decode_toJson id
  rw [h, RequestId.decode_toJson id', Except.ok.injEq] at hdecode
  exact hdecode.symm

theorem decodeWith_toJson (id : RequestId) : decodeWith RequestId.decode id.toJson = .ok id :=
  decodeWith_eq_ok.2 (RequestId.decode_toJson id)

/-- A frame with an id and without a method is a response. -/
theorem classifyIncoming_response {obj : Map} {id : RequestId}
    (hid : obj.get "id" = some id.toJson) (hmethod : obj.get "method" = none) :
    classifyIncoming (.object obj) = classifyResponse obj id := by
  simp [classifyIncoming, hid, hmethod, decodeWith_toJson]
  rfl

/-- A frame with an id that names a method is a request. -/
theorem classifyIncoming_serverRequest {obj : Map} {id : RequestId} {method : String}
    (hid : obj.get "id" = some id.toJson) (hmethod : obj.get "method" = some (.string method)) :
    classifyIncoming (.object obj) = .ok
      (.serverRequest id method ((obj.get "params").getD .null) (.object obj)) := by
  simp [classifyIncoming, hid, hmethod, decodeWith_toJson]

theorem classifyIncoming_error (id : RequestId) (error : RpcError) :
    classifyIncoming (errorFrame id error.toJson) = .ok (.response id (.error error.readBack)) := by
  have herror : decodeWith RpcError.decode error.toJson = .ok error.readBack :=
    decodeWith_eq_ok.2 (RpcError.decode_toJson error)
  have hresponse : classifyIncoming (errorFrame id error.toJson) =
      classifyResponse [("error", error.toJson), ("id", id.toJson)] id :=
    classifyIncoming_response (by simp) (by simp)
  rw [hresponse]
  simp [classifyResponse, herror]

/-- **The frames of the client read back**: a response, a notification and a request are read as
they were written, and so is an error unless its data is `null`, which is read as no data.  The id
that was written is the id that is read, so a string is never taken for the integer it spells. -/
theorem frames_read_back (id : RequestId) (method : String) (params result : Value)
    (error : RpcError) :
    classifyIncoming (resultFrame id result) = .ok (.response id (.ok result)) ∧
    classifyIncoming (errorFrame id error.toJson) = .ok (.response id (.error error.readBack)) ∧
    (error.data ≠ some .null → error.readBack = error) ∧
    classifyIncoming (notificationFrame method params) =
      .ok (.notification method params (notificationFrame method params)) ∧
    classifyIncoming (requestFrame id method params) =
      .ok (.serverRequest id method params (requestFrame id method params)) ∧
    ∀ id' : RequestId, id'.toJson = id.toJson → id' = id := by
  refine ⟨classifyIncoming_result id result, classifyIncoming_error id error,
    RpcError.readBack_eq, ?_, ?_, fun id' => RequestId.toJson_injective⟩
  · exact classifyIncoming_notification (by simp) (by simp)
  · exact classifyIncoming_serverRequest (by simp) (by simp)

/-- An error whose data is `null`. -/
def nullData : RpcError := ⟨-32603, "internal error", some .null⟩

/-- It is read as an error without data. -/
theorem nullData_lost :
    ¬ ∀ (id : RequestId) (error : RpcError),
      classifyIncoming (errorFrame id error.toJson) = .ok (.response id (.error error)) := by
  intro h
  have hread := classifyIncoming_error (.integer 1) nullData
  rw [h (.integer 1) nullData] at hread
  cases hread

end CodexSdk
