import AwsMock.Lib.Bytes

/-!
# String tests

The predicates of `StringUtils`. Case is ignored for the ASCII letters.
-/

namespace AwsMock

open Lib

/-- `Poco::toLower` of one character. -/
def toLowerByte (c : UInt8) : UInt8 := if 65 ≤ c ∧ c ≤ 90 then c + 32 else c

def toLower (s : Str) : Str := s.map toLowerByte

/-- `StringUtils::Equals`: an empty string equals nothing. -/
def equals (s₁ s₂ : Str) : Bool := s₁ ≠ [] ∧ s₂ ≠ [] ∧ s₁ = s₂

def equalsIgnoreCase (s₁ s₂ : Str) : Bool := toLower s₁ = toLower s₂

/-- Whether `s₂` occurs in `s₁`. -/
def contains (s₁ s₂ : Str) : Bool := s₁.tails.any fun t => s₂.isPrefixOf t

def containsIgnoreCase (s₁ s₂ : Str) : Bool := contains (toLower s₁) (toLower s₂)

def startsWith (s₁ s₂ : Str) : Bool := s₂.isPrefixOf s₁

end AwsMock
