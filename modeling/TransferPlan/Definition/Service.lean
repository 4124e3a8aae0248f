import TransferPlan.Definition.Lookup
import TransferPlan.Text.Percent

/-!
# The definition service

Definitions are kept by a service.  One request asks for one definition, and whatever comes back
is either a definition or a reason why there is none.  Sending a request, parsing the body of an
answer and validating a definition are left to others: each is a function that is given, and may
end with an exception that it documents or with any other, so that nothing here depends on a
network.  A conversation keeps the requests that were sent.
-/

namespace TransferPlan

/-! ## Calls to others -/

/-- How a call ends: with a value, with the exception that it documents, or with another one. -/
inductive Attempt (χ ε α : Type) where
  | value (a : α)
  | refused (e : ε)
  | broken (x : χ)

namespace Attempt

variable {χ ε ε' α β : Type}

def bind (a : Attempt χ ε α) (f : α → Attempt χ ε β) : Attempt χ ε β :=
  match a with
  | .value v => f v
  | .refused e => .refused e
  | .broken x => .broken x

/-- The call with the documented exception translated.  Every other one passes through. -/
def translate (f : ε → ε') : Attempt χ ε α → Attempt χ ε' α
  | .value v => .value v
  | .refused e => .refused (f e)
  | .broken x => .broken x

/-- The result of a call that has no other exceptions. -/
def toExcept : Attempt Empty ε α → Except ε α
  | .value v => .ok v
  | .refused e => .error e
  | .broken x => x.elim

end Attempt

/-! ## Requests -/

/-- How to reach the service. -/
structure ServiceConfig where
  baseUrl : Option String
  token : Option String := none
  timeout : Int := 30
deriving DecidableEq, Repr

/-- A service that can be asked. -/
structure Service where
  baseUrl : String
  token : Option String
  timeout : Int
deriving DecidableEq, Repr

/-- A request to the service. -/
structure Request where
  method : String
  url : String
  headers : List (String × String)
  params : Option Json
  timeout : Int

variable {χ : Type}

/-- An answer of the service.  Parsing its body is refused if the body is not JSON. -/
structure Response (χ : Type) where
  status : Int
  body : Attempt χ Unit Json := .refused ()
  text : Option String := none
  reason : Option String := none

/-- What becomes of a request: an answer, or the reason why it failed. -/
abbrev Outcome (χ : Type) := Attempt χ String (Response χ)

abbrev Transport (χ : Type) := Request → Outcome χ

/-- Takes the fields of a record for a definition, or refuses them for their faults. -/
abbrev Validator (χ : Type) := List (String × Json) → Attempt χ (List Fault) Definition

/-- The validation by the reader of definitions. -/
def Validator.reading : Validator χ := fun fields =>
  match Definition.ofJson (.object fields) with
  | .value d => .value d
  | .faulty faults => .refused faults

/-- A conversation: its result, and the requests sent so far, in order. -/
abbrev Exchange := StateM (List Request)

/-- Sends a request. -/
def Transport.send (transport : Transport χ) (r : Request) : Exchange (Outcome χ) := do
  modify (· ++ [r])
  return transport r

namespace Service

/-- The refusal of a configuration without a URL. -/
def missingUrl : String :=
  "Transformer service URL is required to initialize TransformerDefinitionClient."

/-- The text without the slashes at its end. -/
def dropSlashes (s : String) : String :=
  String.ofList (s.toList.reverse.dropWhile (· == '/')).reverse

/-- The service of a configuration, if that has a URL. -/
def ofConfig? (c : ServiceConfig) : Option Service :=
  (Text.trim? (c.baseUrl.getD "")).map fun url =>
    { baseUrl := dropSlashes url
      token := c.token.bind Text.trim?
      timeout := max 1 c.timeout }

/-- The path of a definition. -/
def definitionPath (id : String) : String :=
  "/transformers/user-defined/" ++ Text.Percent.encode id

/-- A request for a path. -/
def request (s : Service) (method path : String) (params : Option Json) : Request where
  method
  url := s.baseUrl ++ path
  headers := ("Accept", "application/json") ::
    s.token.toList.map fun t => ("Authorization", "Bearer " ++ t)
  params
  timeout := s.timeout

/-- The request for a definition. -/
def definitionRequest (s : Service) (id : String) : Request :=
  s.request "GET" (definitionPath id) none

/-! ## Answers -/

/-- The field of a body that says what is wrong. -/
def told? : Json → Option String
  | .object fields =>
    (["message", "detail", "error"].findSome? fun name =>
      (Keyed.value? name fields).filter fun (v : Json) => !v.isBlank).map (·.display)
  | _ => none

/-- What an answer says outside its body. -/
def remark (r : Response χ) : String :=
  match r.text.filter (· != ""), r.reason.filter (· != "") with
  | some text, _ => Text.trim text
  | none, some reason => reason
  | none, none => "unknown error"

/-- What an unsuccessful answer says: a field of its body, else its text, else its reason. -/
def detail (r : Response χ) : Attempt χ LookupError String :=
  match r.body with
  | .value j => .value ((told? j).getD (remark r))
  | .refused () => .value (remark r)
  | .broken x => .broken x

/-- The body of a successful answer. -/
def body (method path : String) : Outcome χ → Attempt χ LookupError Json
  | .refused reason => .refused (.requestFailed path reason)
  | .broken x => .broken x
  | .value r =>
    if r.status ≠ 200 then
      (detail r).bind fun text => .refused (.badStatus method path r.status text)
    else r.body.translate fun () => .notJson path

/-- The definition in the body of an answer. -/
def definition (validate : Validator χ) (id : String) (body : Json) :
    Attempt χ LookupError Definition :=
  match body.field? "transformer" with
  | some (.object fields) => (validate fields).translate (.invalidDefinition id)
  | _ => .refused (.noTransformer id)

/-! ## Conversations -/

/-- Asks for the body under a path. -/
def ask (s : Service) (transport : Transport χ) (method path : String) (params : Option Json) :
    Exchange (Attempt χ LookupError Json) := do
  return body method path (← transport.send (s.request method path params))

/-- Asks for a definition. -/
def fetch (s : Service) (validate : Validator χ) (transport : Transport χ) (id : String) :
    Exchange (Attempt χ LookupError Definition) := do
  return (← s.ask transport "GET" (definitionPath id) none).bind (definition validate id)

/-- The lookup that asks the service each time. -/
def lookup (s : Service) (validate : Validator Empty) (transport : Transport Empty) : Lookup :=
  fun _ id => ((s.fetch validate transport id).run []).1.toExcept

end Service

end TransferPlan
