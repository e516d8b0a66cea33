import ModelClient.Proofs.Rearranged
import ModelClient.Wire.StatusError

/-!
# What an error status is taken for

The error that stands for an answer has its kind from the status, and its message and details from
the body, which is read three times over: for the message, for the details, and for the time to
wait. What the body says is told apart from how it is looked up: `Wire.Says body path v` is that the
body is a JSON text with the value `v` under a path of names. A text that is read lists the fields
of its objects without a repeated name (`Json.Held`), so there is at most one such value, and it is
the one that a lookup finds (`Json.Held.at_iff`).

Categories are told apart by the kind of an error and, for an error of the service, by a table of
its own over the status. `ErrorCategory.ofStatus` is what both come to.

## Main statements

* `Error.ofStatus_classified`: what is told of an answer by its status, and what by its body.
-/

namespace ModelClient

open Json

/-! ## Values under a path -/

namespace Json

/-- The value has `w` under a path of names of its fields. -/
inductive At : Json → List String → Json → Prop
  | here {w} : At w [] w
  | field {fields name v path w} (mem : (name, v) ∈ fields) (rest : At v path w) :
      At (.obj fields) (name :: path) w

/-- The value under a path, looked up name by name. -/
def under? (v : Json) (path : List String) : Option Json :=
  path.foldlM (fun v name => v.field? name) v

/-- A path of one name is a field. -/
theorem under?_singleton (v : Json) (name : String) : v.under? [name] = v.field? name := by
  simp [under?]

/-- A path of two names is a field of a field. -/
theorem under?_pair (v : Json) (first second : String) :
    v.under? [first, second] = (v.field? first).bind (·.field? second) := by
  simp [under?, Option.bind_eq_bind]

/-- A field is found exactly if it is listed. -/
theorem Held.field?_eq_some_iff {limit : Nat} {v w : Json} (h : v.Held limit) {name : String} :
    v.field? name = some w ↔ ∃ fields, v = .obj fields ∧ (name, w) ∈ fields := by
  cases v with
  | obj fields =>
    cases limit with
    | zero => exact h.elim
    | succ limit =>
      show fields.lookup name = some w ↔ _
      rw [Dict.lookup_eq_some_iff_mem (Dict.nodup_names_of_ascending h.1)]
      simp
  | null | bool _ | num _ | str _ | arr _ => simp [field?]

/-- The fields of a value that has been read nest less. -/
theorem Held.of_field? {limit : Nat} {v w : Json} (h : v.Held limit) {name : String}
    (hfield : v.field? name = some w) : w.Held (limit - 1) := by
  obtain ⟨fields, rfl, hmem⟩ := h.field?_eq_some_iff.1 hfield
  cases limit with
  | zero => exact h.elim
  | succ limit => exact h.2 _ hmem

/-- In a value that has been read, what is looked up under a path is what is there. -/
theorem Held.at_iff {limit : Nat} {v w : Json} (h : v.Held limit) (path : List String) :
    v.At path w ↔ v.under? path = some w := by
  induction path generalizing v limit with
  | nil =>
    constructor
    · rintro ⟨⟩
      rfl
    · rintro ⟨⟩
      exact .here
  | cons name path ih =>
    rw [under?, List.foldlM_cons]
    constructor
    · rintro (_ | ⟨hmem, hrest⟩)
      have hfield := h.field?_eq_some_iff.2 ⟨_, rfl, hmem⟩
      exact Option.bind_eq_some_iff.2 ⟨_, hfield, (ih (h.of_field? hfield)).1 hrest⟩
    · intro hunder
      obtain ⟨next, hfield, hrest⟩ := Option.bind_eq_some_iff.1 hunder
      obtain ⟨fields, rfl, hmem⟩ := h.field?_eq_some_iff.1 hfield
      exact .field hmem ((ih (h.of_field? hfield)).2 hrest)

/-- A value that may be missing has a text if it is that string. -/
theorem bind_str?_eq_some_iff {v? : Option Json} {s : String} :
    v?.bind str? = some s ↔ v? = some (.str s) := by
  cases v? with
  | none => simp
  | some v => cases v <;> simp [str?]

/-- A text that is read gives a value that a document holds. -/
theorem held_of_ofString? {text : String} {v : Json} (h : Json.ofString? text = some v) :
    v.Held Doc.depthLimit := by
  obtain ⟨d, hd, hv⟩ := Option.bind_eq_some_iff.1 h
  exact held_of_toJson? (Doc.fits_of_parse? hd) hv

end Json

/-! ## What a body says -/

namespace Wire

/-- The body is a JSON text with the value `v` under a path of names. -/
def Says (body : String) (path : List String) (v : Json) : Prop :=
  ∃ whole, Json.ofString? body = some whole ∧ whole.At path v

/-- The message of a body is the one in its envelope, or without one the whole body. -/
def HasMessage (body message : String) : Prop :=
  Says body ["error", "message"] (.str message) ∨
    (∀ other, ¬Says body ["error", "message"] (.str other)) ∧ message = body

/-- The service's code as a text. A number is taken as it is printed. -/
def HasCode (body code : String) : Prop :=
  Says body ["error", "code"] (.str code) ∨
    ∃ n : Number, Says body ["error", "code"] (.num n) ∧ code = String.ofList n.write

variable {body : String}

/-- A body says at most one thing under a path, the one that is looked up. -/
theorem says_iff {path : List String} {v : Json} :
    Says body path v ↔ (Json.ofString? body).bind (·.under? path) = some v := by
  rw [Says, Option.bind_eq_some_iff]
  exact exists_congr fun whole => and_congr_right fun hwhole => (held_of_ofString? hwhole).at_iff path

/-- The envelope is what the body says under `error`. -/
theorem errorEnvelope?_eq_some_iff {envelope : Json} :
    errorEnvelope? body = some envelope ↔ Says body ["error"] envelope := by
  rw [says_iff]
  simp only [under?_singleton]
  rfl

/-- A field of the envelope is a field under `error`. -/
theorem errorEnvelope?_bind_field? (body name : String) :
    (errorEnvelope? body).bind (·.field? name) =
      (Json.ofString? body).bind (·.under? ["error", name]) := by
  simp only [under?_pair]
  exact Option.bind_assoc ..

/-- The message that is looked up is the one that the body has. -/
theorem errorMessage_eq_iff {message : String} :
    errorMessage body = message ↔ HasMessage body message := by
  have hread : errorMessage body =
      (((Json.ofString? body).bind (·.under? ["error", "message"])).bind str?).getD body := by
    rw [← errorEnvelope?_bind_field?, Option.bind_assoc]
    rfl
  simp only [HasMessage, says_iff, hread]
  cases (Json.ofString? body).bind (·.under? ["error", "message"]) with
  | none => simp [eq_comm]
  | some v => cases v <;> simp [str?, eq_comm]

/-- There are details exactly if there is an envelope. -/
theorem isSome_errorDetails?_iff {status : Nat} :
    (errorDetails? status body).isSome = true ↔ ∃ envelope, Says body ["error"] envelope := by
  simp only [← errorEnvelope?_eq_some_iff, errorDetails?]
  cases errorEnvelope? body <;> simp

/-- The parts of the details, each read on its own. -/
theorem of_errorDetails?_eq_some {status : Nat} {details : ErrorDetails}
    (h : errorDetails? status body = some details) :
    details.code = some (.ofStatus status) ∧
      (∀ code, details.providerCode = some code ↔ HasCode body code) ∧
      ∀ id, details.requestId = some id ↔ Says body ["request_id"] (.str id) := by
  obtain ⟨envelope, henvelope, h⟩ := Option.bind_eq_some_iff.1 h
  cases h
  refine ⟨rfl, fun code => ?_, fun id => ?_⟩
  · have hfield := errorEnvelope?_bind_field? body "code"
    rw [henvelope, Option.bind_some] at hfield
    simp only [HasCode, says_iff, ← hfield]
    cases envelope.field? "code" with
    | none => simp
    | some v => cases v <;> simp [eq_comm]
  · simp only [says_iff, under?_singleton, ← bind_str?_eq_some_iff, Option.bind_assoc]
    rfl

end Wire

/-! ## The error of an answer -/

open Wire

/-- The category of an error status. -/
def ErrorCategory.ofStatus (status : Nat) : ErrorCategory :=
  if status = 401 ∨ status = 403 then .authentication
  else if status = 429 then .rateLimit
  else if 500 ≤ status ∧ status ≤ 599 then .server
  else .api

namespace Error

/-- The message that the error passes on from the service. -/
def reported? : Error → Option String
  | authentication message | api _ message _ => some message
  | _ => none

/-- The details that the error passes on from the service. -/
def details? : Error → Option ErrorDetails
  | api _ _ details => details
  | _ => none

variable (status : Nat) (body : String)

/-- The kind of the error and the table for errors of the service agree on every status. -/
theorem category_ofStatus : (ofStatus status body).category = .ofStatus status := by
  rw [ofStatus, ErrorCategory.ofStatus]
  by_cases hauthentication : status = 401 ∨ status = 403
  · rw [if_pos hauthentication, if_pos hauthentication]
    rfl
  rw [if_neg hauthentication, if_neg hauthentication]
  by_cases hlimit : status = 429
  · rw [if_pos hlimit, if_pos hlimit]
    rfl
  rw [if_neg hlimit, if_neg hlimit]
  cases errorDetails? status body <;> simp [category, hauthentication, hlimit]

/-- **Repetition.** An answer is worth repeating after too many requests and after a failure of the
server. -/
theorem isRetryable_ofStatus :
    (ofStatus status body).isRetryable = true ↔ status = 429 ∨ 500 ≤ status ∧ status ≤ 599 := by
  rw [isRetryable, category_ofStatus, ErrorCategory.ofStatus]
  by_cases hauthentication : status = 401 ∨ status = 403
  · rw [if_pos hauthentication]
    simp only [Bool.false_eq_true, false_iff]
    omega
  rw [if_neg hauthentication]
  by_cases hlimit : status = 429
  · simp [hlimit]
  rw [if_neg hlimit]
  by_cases hserver : 500 ≤ status ∧ status ≤ 599
  · simp [hserver]
  · simp [hserver, hlimit]

/-- Without an envelope the whole body is the message, as if there were one without a message. -/
theorem reported?_ofStatus (hlimit : status ≠ 429) :
    (ofStatus status body).reported? = some (errorMessage body) := by
  rw [ofStatus]
  by_cases hauthentication : status = 401 ∨ status = 403
  · rw [if_pos hauthentication]
    rfl
  rw [if_neg hauthentication, if_neg hlimit]
  cases henvelope : errorEnvelope? body with
  | some envelope =>
    rw [errorDetails?, henvelope]
    rfl
  | none =>
    rw [errorDetails?, errorMessage, henvelope]
    rfl

/-- An error that is about neither the key nor the rate has the details of the body. -/
theorem details?_ofStatus (hauthentication : ¬(status = 401 ∨ status = 403))
    (hlimit : status ≠ 429) : (ofStatus status body).details? = errorDetails? status body := by
  rw [ofStatus, if_neg hauthentication, if_neg hlimit]
  cases errorDetails? status body <;> rfl

/-- **What is taken from a status and from a body.** The category of the error of an answer is that
of the status, and so is what to do about it and whether to try again, whatever the body says.
Unless there were too many requests, the error passes on a message, which is the one in the body's
envelope or else the whole body; and unless the request was also refused for its key, it passes on
details exactly if the body has an envelope: the code of the status, the service's own code as a
text, and the request's id. -/
theorem ofStatus_classified :
    (ofStatus status body).category = .ofStatus status ∧
      (ofStatus status body).recovery = (ErrorCategory.ofStatus status).recovery ∧
      ((ofStatus status body).isRetryable = true ↔
        status = 429 ∨ 500 ≤ status ∧ status ≤ 599) ∧
      (status ≠ 429 → ∀ message,
        (ofStatus status body).reported? = some message ↔ HasMessage body message) ∧
      (status ≠ 401 → status ≠ 403 → status ≠ 429 →
        ((ofStatus status body).details?.isSome = true ↔
          ∃ envelope, Says body ["error"] envelope) ∧
        ∀ details, (ofStatus status body).details? = some details →
          details.code = some (.ofStatus status) ∧
          (∀ code, details.providerCode = some code ↔ HasCode body code) ∧
          ∀ id, details.requestId = some id ↔ Says body ["request_id"] (.str id)) := by
  have hcategory := category_ofStatus status body
  refine ⟨hcategory, congrArg ErrorCategory.recovery hcategory, isRetryable_ofStatus status body,
    fun hlimit message => ?_, fun hkey hforbidden hlimit => ?_⟩
  · rw [reported?_ofStatus status body hlimit, Option.some_inj, errorMessage_eq_iff]
  · rw [details?_ofStatus status body (not_or.2 ⟨hkey, hforbidden⟩) hlimit]
    exact ⟨isSome_errorDetails?_iff, fun details hdetails => of_errorDetails?_eq_some hdetails⟩

end Error

end ModelClient
