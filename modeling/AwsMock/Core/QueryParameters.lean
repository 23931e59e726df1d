import Mathlib.Data.List.TakeWhile
import AwsMock.Core.HttpUtils

/-!
# Query parameters

Which strings the functions on query parameters read without going out of range, and which parameters
they find.
-/

namespace AwsMock

open Lib

variable (lib : PocoUri)

/-! ### Out of range -/

theorem getQueryParameterName_defined {parameter : Str} :
    (getQueryParameterName parameter).Defined ↔ parameter ≠ [] := by
  rw [getQueryParameterName, Outcome.defined_get, List.length_pos_iff, split_ne_nil]

theorem hasQueryParameter_defined {uri name : Str} :
    (hasQueryParameter uri name).Defined ↔ Scannable name (queryParameters uri) := by
  rw [hasQueryParameter_eq]
  split <;> simp [*]

/-- The prefix makes no difference. -/
theorem getQueryParametersByPrefix_eq (uri start : Str) : getQueryParametersByPrefix lib uri start =
    (queryParameters uri).mapM (getQueryParameterValue lib) := by
  simp [getQueryParametersByPrefix]

theorem getQueryParametersByPrefix_defined (uri start : Str) :
    (getQueryParametersByPrefix lib uri start).Defined := by
  rw [getQueryParametersByPrefix_eq]
  exact Outcome.defined_mapM fun it _ => getQueryParameterValue_defined lib it

/-- The value of a parameter that the library cannot decode. -/
def Undecodable (parameter : Str) : Prop :=
  ∃ value, (split (byte '=') parameter)[1]? = some value ∧ ∃ message, lib.decode value = .error message

theorem getQueryParameterValue_throws {parameter : Str} :
    (∃ e, getQueryParameterValue lib parameter = .throws e) ↔ Undecodable lib parameter := by
  rcases hsplit : split (byte '=') parameter with _ | ⟨name, _ | ⟨value, rest⟩⟩
  · simp [getQueryParameterValue, Undecodable, hsplit]
  · simp [getQueryParameterValue, Undecodable, hsplit]
  · rcases hdecode : lib.decode value with message | decoded
    · simp [getQueryParameterValue, Undecodable, hsplit, decodeValue_eq, urlDecode, hdecode, pocoTry,
        Outcome.ofExcept]
    · simp [getQueryParameterValue, Undecodable, hsplit, decodeValue_eq, urlDecode, hdecode, pocoTry,
        Outcome.ofExcept]

theorem getQueryParametersByPrefix_throws {uri start : Str} :
    (∃ e, getQueryParametersByPrefix lib uri start = .throws e) ↔
      ∃ it ∈ queryParameters uri, Undecodable lib it := by
  rw [getQueryParametersByPrefix_eq, Outcome.mapM_throws fun it _ => getQueryParameterValue_defined lib it]
  simp only [getQueryParameterValue_throws]

/-- The index zero passes the check; it is harmless only where the values are not reached. -/
theorem getQueryParameterByPrefix_defined {uri start : Str} {index : Int} :
    (getQueryParameterByPrefix lib uri start index).Defined ↔
      index ≠ 0 ∨ ∃ it ∈ queryParameters uri, Undecodable lib it := by
  rw [← getQueryParametersByPrefix_throws lib]
  unfold getQueryParameterByPrefix
  rcases hvalues : getQueryParametersByPrefix lib uri start with values | e | _
  · rw [Outcome.returns_bind]
    by_cases hbad : index < 0 ∨ (values.length : Int) < index
    · have hne : index ≠ 0 := by omega
      rw [if_pos hbad]
      simp [hne]
    · rw [if_neg hbad]
      by_cases hzero : index = 0
      · simp [hzero]
      · have hin : index.toNat - 1 < values.length := by omega
        rw [if_neg hzero, Outcome.defined_get]
        simp [hzero, hin]
  · simp
  · exact absurd hvalues (getQueryParametersByPrefix_defined lib uri start)

/-- A name and a value: something follows the first equals sign. -/
def HasValue (parameter : Str) : Prop := byte '=' ∈ parameter.dropLast

instance (parameter : Str) : Decidable (HasValue parameter) :=
  inferInstanceAs (Decidable (_ ∈ _))

theorem insertParameter_returns {it : Str} (h : HasValue it) (parameters : OrderedMap Str Str) :
    ∃ parameters', insertParameter parameters it = .returns parameters' := by
  have htwo : 2 ≤ (split (byte '=') it).length := two_le_length_split.mpr h
  rcases hsplit : split (byte '=') it with _ | ⟨name, _ | ⟨value, rest⟩⟩
  · simp [hsplit] at htwo
  · simp [hsplit] at htwo
  · exact ⟨parameters.insert name value, by simp [insertParameter, hsplit, Outcome.get]⟩

theorem insertParameter_undefined {it : Str} (h : ¬ HasValue it) (parameters : OrderedMap Str Str) :
    insertParameter parameters it = .undefined := by
  have htwo : (split (byte '=') it).length < 2 := by
    rw [← not_le, two_le_length_split]
    exact h
  rcases hsplit : split (byte '=') it with _ | ⟨name, _ | ⟨value, rest⟩⟩
  · simp [insertParameter, hsplit, Outcome.get]
  · simp [insertParameter, hsplit, Outcome.get]
  · rw [hsplit, List.length_cons, List.length_cons] at htwo
    omega

/-- A query is read when each of its parameters has a value. -/
theorem getQueryParameters_cases (uri : Str) :
    ((contains uri (str "?") → ∀ it ∈ queryParameters uri, HasValue it) ∧
      ∃ parameters, getQueryParameters uri = .returns parameters) ∨
    (¬ (contains uri (str "?") → ∀ it ∈ queryParameters uri, HasValue it) ∧
      getQueryParameters uri = .undefined) := by
  unfold getQueryParameters
  split
  · next hquery =>
    simpa [hquery] using Outcome.foldlM_cases (fun parameters _ h => insertParameter_returns h parameters)
      (fun parameters _ h => insertParameter_undefined h parameters) (queryParameters uri) ∅
  · next hquery => exact .inl ⟨fun h => absurd h hquery, ∅, rfl⟩

theorem getQueryParameters_defined {uri : Str} : (getQueryParameters uri).Defined ↔
    contains uri (str "?") → ∀ it ∈ queryParameters uri, HasValue it := by
  rcases getQueryParameters_cases uri with ⟨hvalues, parameters, hreturns⟩ | ⟨hvalues, hundefined⟩
  · rw [hreturns]
    exact iff_of_true (Outcome.defined_returns _) hvalues
  · rw [hundefined]
    exact iff_of_false Outcome.not_defined_undefined hvalues

/-- The five functions stay in range. -/
structure InRange (uri parameter name start : Str) (index : Int) : Prop where
  parameterName : (getQueryParameterName parameter).Defined
  hasParameter : (hasQueryParameter uri name).Defined
  valueByName : (getQueryParameterValueByName lib uri name).Defined
  byPrefix : (getQueryParameterByPrefix lib uri start index).Defined
  parameters : (getQueryParameters uri).Defined

/-- The strings they stay in range on: the parameter is not empty, no empty parameter stands before the
    one looked for, the index is not zero (unless a value cannot be decoded), and each parameter of a
    query has a value. -/
theorem query_functions_in_range (uri parameter name start : Str) (index : Int) :
    InRange lib uri parameter name start index ↔
      parameter ≠ [] ∧ Scannable name (queryParameters uri) ∧
        (index ≠ 0 ∨ ∃ it ∈ queryParameters uri, Undecodable lib it) ∧
        (contains uri (str "?") → ∀ it ∈ queryParameters uri, HasValue it) := by
  rw [← getQueryParameterName_defined, ← hasQueryParameter_defined,
    ← getQueryParameterByPrefix_defined, ← getQueryParameters_defined]
  constructor
  · intro h
    exact ⟨h.parameterName, h.hasParameter, h.byPrefix, h.parameters⟩
  · rintro ⟨hname, hhas, hprefix, hall⟩
    exact ⟨hname, hhas, (getQueryParameterValueByName_defined lib).mpr (hasQueryParameter_defined.mp hhas),
      hprefix, hall⟩

/-- The payload `a=1&&b` with an empty parameter, and the parameter `b` without a value. -/
theorem query_function_out_of_range :
    hasQueryParameter (str "a=1&&b") (str "b") = .undefined ∧
      getQueryParameters (str "/?a=1&b") = .undefined ∧
      ¬ InRange .standard (str "a=1&&b") (str "a=1") (str "b") [] 1 := by
  refine ⟨by decide +kernel, by decide +kernel, fun h => ?_⟩
  have hmissing : ¬ (hasQueryParameter (str "a=1&&b") (str "b")).Defined := by decide +kernel
  exact hmissing h.hasParameter

/-! ### The parameters of a target -/

/-- The parameters of a request target: those of the part behind its first question mark. -/
def targetParameters (uri : Str) : List Str :=
  if contains uri (str "?") then split (byte '&') (subStringAfter uri (str "?")) else []

/-- A name is looked up among the parameters of the target. -/
structure FindsInQuery (uri name : Str) : Prop where
  has : hasQueryParameter uri name = .returns ((targetParameters uri).find? (isNamed name)).isSome
  value : getQueryParameterValueByName lib uri name =
    match (targetParameters uri).find? (isNamed name) with
    | some it => getQueryParameterValue lib it
    | none => .returns []

/-- Nothing of the target is mistaken for the name: no empty parameter stands in front of it, and a
    target without a query has, read as a payload, no empty parameter and none of that name. -/
def Unmistaken (uri name : Str) : Prop :=
  if contains uri (str "?") then Scannable name (targetParameters uri)
  else ∀ it ∈ split (byte '&') uri, it ≠ [] ∧ isNamed name it = false

theorem scannable_of_none {name : Str} {parameters : List Str}
    (h : ∀ it ∈ parameters, it ≠ [] ∧ isNamed name it = false) : Scannable name parameters :=
  fun hmem => (h [] (List.takeWhile_subset _ hmem)).1 rfl

/-- Where no parameter has the name, all of them are passed. -/
theorem Scannable.ne_nil {name : Str} {parameters : List Str} (h : Scannable name parameters)
    (hnone : parameters.find? (isNamed name) = none) {it : Str} (hit : it ∈ parameters) : it ≠ [] := by
  have hall : parameters.takeWhile (fun it => ¬ isNamed name it) = parameters := by
    rw [List.takeWhile_eq_self_iff]
    intro x hx
    simpa using List.find?_eq_none.mp hnone x hx
  rintro rfl
  rw [Scannable, hall] at h
  exact h hit

theorem findsInQuery_iff {uri name : Str} : FindsInQuery lib uri name ↔ Unmistaken uri name := by
  have hhas := hasQueryParameter_eq uri name
  have hvalue := findParameter_eq name (queryParameters uri)
  by_cases hquery : contains uri (str "?")
  · have hsame : queryParameters uri = targetParameters uri := by
      simp [queryParameters, getQueryString, targetParameters, hquery]
    rw [hsame] at hhas hvalue
    rw [Unmistaken, if_pos hquery]
    constructor
    · intro h
      by_contra hscan
      rw [h.has, if_neg hscan] at hhas
      cases hhas
    · intro hscan
      rw [if_pos hscan] at hhas hvalue
      refine ⟨hhas, ?_⟩
      rw [getQueryParameterValueByName, hsame, hvalue, Outcome.returns_bind]
      cases (targetParameters uri).find? (isNamed name) <;> rfl
  · have hsame : queryParameters uri = split (byte '&') uri := by
      simp [queryParameters, getQueryString, hquery]
    have hnone : targetParameters uri = [] := by simp [targetParameters, hquery]
    rw [hsame] at hhas hvalue
    rw [Unmistaken, if_neg hquery]
    constructor
    · intro h it hit
      have hfound := h.has.symm.trans hhas
      split at hfound
      · next hscan =>
        have hmissing : (split (byte '&') uri).find? (isNamed name) = none := by
          simpa [hnone] using hfound
        exact ⟨hscan.ne_nil hmissing hit, by simpa using List.find?_eq_none.mp hmissing it hit⟩
      · cases hfound
    · intro hall
      have hmissing : (split (byte '&') uri).find? (isNamed name) = none :=
        List.find?_eq_none.mpr fun it hit => by simp [(hall it hit).2]
      rw [if_pos (scannable_of_none hall), hmissing] at hhas hvalue
      refine ⟨by rw [hhas, hnone]; rfl, ?_⟩
      rw [getQueryParameterValueByName, hsame, hvalue, Outcome.returns_bind, hnone]
      rfl

end AwsMock
