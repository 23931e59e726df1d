import AwsMock.Core.HttpUtils

/-!
# Authorization headers

The keys of an `Authorization` header and the regular expression that finds them. The matcher
`Poco::RegularExpression` is not part of the repository.
-/

namespace AwsMock

open Lib

structure AuthorizationHeaderKeys where
  signingVersion : Str := []
  secretAccessKey : Str := []
  dateTime : Str := []
  isoDateTime : Str := []
  scope : Str := []
  region : Str := []
  module : Str := []
  requestVersion : Str := []
  signedHeaders : Str := []
  signature : Str := []
  deriving DecidableEq

/-- The groups of a match; the fifth is always `aws4_request`. -/
structure AuthorizationMatch where
  accessKeyId : Str
  dateTime : Str
  region : Str
  module : Str
  signedHeaders : Str
  signature : Str
  deriving DecidableEq

namespace AuthorizationMatch

/-- `[a-zA-Z0-9\-]+` -/
def isName (s : Str) : Bool := s ≠ [] ∧ s.all fun c => isAlphaNumeric c ∨ c = byte '-'

/-- What the groups may contain: a `.` matches no newline. -/
def WellFormed (m : AuthorizationMatch) : Prop :=
  (m.accessKeyId ≠ [] ∧ m.accessKeyId.all isAlphaNumeric) ∧
    (m.dateTime.length = 8 ∧ m.dateTime.all isDigit) ∧ isName m.region ∧ isName m.module ∧
    byte '\n' ∉ m.signedHeaders ∧ byte '\n' ∉ m.signature

/-- The text of a match, with an optional blank behind each comma. -/
def text (m : AuthorizationMatch) (first second : Bool) : Str :=
  let blank : Bool → Str := fun b => if b then str " " else []
  str "Credential=" ++ m.accessKeyId ++ str "/" ++ m.dateTime ++ str "/" ++ m.region ++ str "/" ++
    m.module ++ str "/aws4_request," ++ blank first ++ str "SignedHeaders=" ++ m.signedHeaders ++
    str "," ++ blank second ++ str "Signature=" ++ m.signature

/-- The match stands somewhere in the header and ends it, up to a final newline. -/
def Matches (m : AuthorizationMatch) (header : Str) : Prop :=
  m.WellFormed ∧ ∃ before first second after, (after = [] ∨ after = str "\n") ∧
    header = before ++ m.text first second ++ after

end AuthorizationMatch

/-- `pattern.match(header, 0, posVec)`. -/
structure AuthorizationPattern where
  search : Str → Option AuthorizationMatch
  search_matches : ∀ {header m}, search header = some m → m.Matches header
  search_isSome : ∀ {header} {m : AuthorizationMatch}, m.Matches header → (search header).isSome

open Classical in
/-- A matcher. -/
noncomputable def AuthorizationPattern.any : AuthorizationPattern where
  search header := if h : ∃ m : AuthorizationMatch, m.Matches header then some h.choose else none
  search_matches h := by
    split at h
    · next hm => cases h; exact hm.choose_spec
    · cases h
  search_isSome h := by
    rw [dif_pos ⟨_, h⟩]
    rfl

end AwsMock
