import AwsMock.Core.Uri
import AwsMock.Lib.OrderedMap

/-!
# HTTP requests

`http::request` as the code reads it, and the functions of `HttpUtils` on paths, parameters and headers.
A `[]` on the result of a split that has no such token is undefined behaviour.
-/

namespace AwsMock

open Lib

/-- `http::verb`; the other methods are not told apart. -/
inductive Verb where
  | get
  | put
  | post
  | delete
  | head
  | other (name : Str)
  deriving DecidableEq

/-- A request; the fields stand in the order they were inserted. -/
structure HttpRequest where
  method : Verb
  target : Str
  fields : List (Str × Str) := []
  body : Str := []
  deriving DecidableEq

namespace HttpRequest

/-- `request.base().find(name)`: the first field with the name, whatever its case. -/
def findField (request : HttpRequest) (name : Str) : Option (Str × Str) :=
  request.fields.find? fun field => equalsIgnoreCase field.1 name

/-- `request[name]`. -/
def field (request : HttpRequest) (name : Str) : Str := ((request.findField name).map Prod.snd).getD []

end HttpRequest

/-! ### Headers -/

def hasHeader (request : HttpRequest) (name : Str) : Bool := (request.findField name).isSome

def getHeaderValue (request : HttpRequest) (name : Str) (defaultValue : Str) : Str :=
  if ¬ hasHeader request name ∧ defaultValue ≠ [] then defaultValue else request.field name

/-- `GetHeaders`: the last field with a name stays. -/
def getHeaders (request : HttpRequest) : OrderedMap Str Str := .ofList request.fields

def getContentType (request : HttpRequest) : Str :=
  if containsIgnoreCase (request.field (str "Content-Type")) (str "json") then str "json"
  else str "xml"

/-- `std::stol`: what follows the digits is ignored. -/
def stol (s : Str) : Except Error Int :=
  let (sign, rest) := signOf (s.dropWhile isSpace)
  let digits := rest.takeWhile isDigit
  let n := sign * digitsValue digits
  if digits = [] then .error (.stdException (str "stol"))
  else if -9223372036854775808 ≤ n ∧ n ≤ 9223372036854775807 then .ok n
  else .error (.stdException (str "stol"))

def getContentLength (request : HttpRequest) : Outcome Error Int :=
  if hasHeader request (str "Content-Length") then
    .ofExcept (stol (request.field (str "Content-Length")))
  else return 0

/-! ### Paths -/

def getBasePath (uri : Str) : Str :=
  let basePath := subStringUntil uri (str "?")
  if basePath.head? = some (byte '/') then basePath.drop 1 else basePath

variable (lib : PocoUri)

/-- A value that changes when it is decoded is returned decoded. -/
def decodeValue (value : Str) : Outcome Error Str := do
  if ← isUrlEncoded lib value then urlDecode lib value else return value

def getPathParameter (uri : Str) (index : Nat) : Outcome Error Str :=
  match (split (byte '/') (getBasePath uri))[index]? with
  | none => return []
  | some parameter => decodeValue lib parameter

def getPathParametersFromIndex (uri : Str) (index : Nat) : Outcome Error Str :=
  urlDecode lib (joinFrom (split (byte '/') (getBasePath uri)) index)

/-! ### Parameters -/

/-- `GetQueryString`: a string without a question mark is taken for a payload. -/
def getQueryString (uri : Str) : Str :=
  if contains uri (str "?") then subStringAfter uri (str "?") else uri

/-- `StringUtils::Split(GetQueryString(uri), '&')`. -/
def queryParameters (uri : Str) : List Str := split (byte '&') (getQueryString uri)

def countQueryParametersByPrefix (uri start : Str) : Nat :=
  (queryParameters uri).countP fun it => startsWith it start

/-- `GetQueryParameterName`: the first token is taken unchecked. -/
def getQueryParameterName (parameter : Str) : Outcome Error Str :=
  .get (split (byte '=') parameter) 0

def getQueryParameterValue (parameter : Str) : Outcome Error Str :=
  match split (byte '=') parameter with
  | _ :: value :: _ => decodeValue lib value
  | _ => return []

/-- `GetQueryParametersByPrefix`: both branches do the same. -/
def getQueryParametersByPrefix (uri start : Str) : Outcome Error (List Str) :=
  (queryParameters uri).mapM fun it =>
    if start ≠ [] ∧ startsWith it start then getQueryParameterValue lib it
    else getQueryParameterValue lib it

/-- `queryParameters[namedValues[0]] = namedValues[1]`. -/
def insertParameter (parameters : OrderedMap Str Str) (it : Str) :
    Outcome Error (OrderedMap Str Str) := do
  let name ← .get (split (byte '=') it) 0
  let value ← .get (split (byte '=') it) 1
  return parameters.insert name value

/-- `GetQueryParameters`: nothing is decoded. -/
def getQueryParameters (uri : Str) : Outcome Error (OrderedMap Str Str) :=
  if contains uri (str "?") then (queryParameters uri).foldlM insertParameter ∅
  else return ∅

/-- The first parameter with a name. -/
def findParameter (name : Str) : List Str → Outcome Error (Option Str)
  | [] => return none
  | it :: rest => do
    if (← getQueryParameterName it) = name then return some it else findParameter name rest

def getQueryParameterValueByName (uri name : Str) : Outcome Error Str := do
  match ← findParameter name (queryParameters uri) with
  | some it => getQueryParameterValue lib it
  | none => return []

def hasQueryParameter (uri name : Str) : Outcome Error Bool := do
  return (← findParameter name (queryParameters uri)).isSome

/-- `GetQueryParameterByPrefix`: a negative index is a large one when it is compared, and the first
    parameter has the index one. -/
def getQueryParameterByPrefix (uri start : Str) (index : Int) : Outcome Error Str := do
  let parameters ← getQueryParametersByPrefix lib uri start
  if index < 0 ∨ parameters.length < index then
    .throws (.serviceException (str "Invalid path parameter index"))
  else if index = 0 then .undefined
  else .get parameters (index.toNat - 1)

/-- `GetIntParameter`: the bounds are excluded. -/
def getIntParameter (body name : Str) (min max default : Int) : Outcome Error Int := do
  let parameterValue ← getQueryParameterValueByName lib body name
  if parameterValue = [] then return default
  else
    let value ← .ofExcept (stoi parameterValue)
    return if min < value ∧ value < max then value else default

/-! ### Looking for a parameter -/

/-- A parameter with a name. -/
def isNamed (name parameter : Str) : Bool := (split (byte '=') parameter).head? = some name

/-- No empty parameter stands before the first one with the name. -/
def Scannable (name : Str) (parameters : List Str) : Prop :=
  [] ∉ parameters.takeWhile fun it => ¬ isNamed name it

instance (name : Str) (parameters : List Str) : Decidable (Scannable name parameters) :=
  inferInstanceAs (Decidable (¬ [] ∈ parameters.takeWhile fun it => ¬ isNamed name it))

theorem getQueryParameterName_eq {parameter : Str} (hne : parameter ≠ []) :
    ∃ name, getQueryParameterName parameter = .returns name ∧
      ∀ n, isNamed n parameter = decide (name = n) := by
  obtain ⟨name, rest, hsplit⟩ := List.exists_cons_of_ne_nil (split_ne_nil (d := byte '=').mpr hne)
  refine ⟨name, ?_, fun n => ?_⟩
  · simp [getQueryParameterName, hsplit, Outcome.get]
  · simp [isNamed, hsplit]

/-- The loop over the parameters goes out of range at an empty one. -/
theorem findParameter_eq (name : Str) (parameters : List Str) :
    findParameter name parameters =
      if Scannable name parameters then .returns (parameters.find? (isNamed name))
      else .undefined := by
  induction parameters with
  | nil => simp [findParameter, Scannable]
  | cons it rest ih =>
    by_cases hit : it = []
    · subst hit
      rw [if_neg (by simp [Scannable, isNamed])]
      rfl
    · obtain ⟨n, hname, hnamed⟩ := getQueryParameterName_eq hit
      rw [findParameter, hname, Outcome.returns_bind]
      by_cases hn : n = name
      · rw [if_pos hn, if_pos (by simp [Scannable, hnamed, hn])]
        simp [hnamed, hn]
      · have hscan : Scannable name (it :: rest) ↔ Scannable name rest := by
          simp [Scannable, hnamed, hn, Ne.symm hit]
        rw [if_neg hn, ih]
        simp [hscan, hnamed, hn]

theorem urlDecode_defined (s : Str) : (urlDecode lib s).Defined := by
  simp [urlDecode, Outcome.defined_bind]

/-- The test before the decoding makes no difference. -/
theorem decodeValue_eq (value : Str) : decodeValue lib value = urlDecode lib value := by
  cases hdecode : urlDecode lib value with
  | returns decoded =>
    simp only [decodeValue, isUrlEncoded, hdecode, Outcome.returns_bind, Outcome.pure_eq]
    split
    · rfl
    · next heq =>
      simp only [equals, Bool.not_eq_true', Bool.not_eq_false, decide_eq_true_eq] at heq
      rw [heq.2.2]
  | throws e => simp [decodeValue, isUrlEncoded, hdecode]
  | undefined => exact absurd hdecode (urlDecode_defined lib value)

theorem decodeValue_defined (value : Str) : (decodeValue lib value).Defined := by
  rw [decodeValue_eq]
  exact urlDecode_defined lib value

theorem getPathParameter_defined (uri : Str) (index : Nat) :
    (getPathParameter lib uri index).Defined := by
  unfold getPathParameter
  split
  · exact Outcome.defined_returns _
  · exact decodeValue_defined lib _

theorem getQueryParameterValue_defined (it : Str) : (getQueryParameterValue lib it).Defined := by
  unfold getQueryParameterValue
  split
  · exact decodeValue_defined lib _
  · exact Outcome.defined_returns _

theorem hasQueryParameter_eq (uri name : Str) : hasQueryParameter uri name =
    if Scannable name (queryParameters uri) then
      .returns ((queryParameters uri).find? (isNamed name)).isSome
    else .undefined := by
  rw [hasQueryParameter, findParameter_eq]
  split <;> rfl

theorem hasQueryParameter_bind_defined {uri name : Str} {α : Type} {f : Bool → Outcome Error α} :
    (hasQueryParameter uri name >>= f).Defined ↔ Scannable name (queryParameters uri) ∧
      (f ((queryParameters uri).find? (isNamed name)).isSome).Defined := by
  rw [hasQueryParameter_eq]
  split <;> simp [*]

theorem getQueryParameterValueByName_defined {uri name : Str} :
    (getQueryParameterValueByName lib uri name).Defined ↔ Scannable name (queryParameters uri) := by
  rw [getQueryParameterValueByName, findParameter_eq, Outcome.defined_bind]
  split
  · next h =>
    refine ⟨fun _ => h, fun _ => ⟨Outcome.defined_returns _, fun found _ => ?_⟩⟩
    split
    · exact getQueryParameterValue_defined lib _
    · exact Outcome.defined_returns _
  · next h => simp [h]

end AwsMock
