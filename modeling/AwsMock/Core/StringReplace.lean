import Mathlib.Data.Int.ModEq
import Mathlib.Tactic.Linarith
import AwsMock.Lib.Bytes
import AwsMock.Lib.Loops
import AwsMock.Lib.Occurrences

/-!
# Replacing in C strings

`StringUtils::Replace`. Its first loop counts the occurrences of the pattern, its second one replaces
them. Once the pattern occurs the first loop counts one occurrence too many, since it begins by finding
the first one twice: the memory is too large for a longer replacement and too small for a shorter one.
-/

namespace AwsMock.Core

open Lib

/-- `PTRDIFF_MAX`; no object is larger. -/
abbrev ptrdiffMax : Nat := 2 ^ 63 - 1

/-- The characters before the NUL of a C string. -/
structure CString where
  chars : Str
  noNul : 0 ∉ chars
  fits : chars.length < ptrdiffMax

/-- Whether `malloc` finds the memory it is asked for. -/
structure Malloc where
  grants : Nat → Bool
  bounded : ∀ {n}, grants n = true → n ≤ ptrdiffMax

def strlen (s : CString) : UInt64 := UInt64.ofNat s.chars.length

/-- A pointer into a C string is what it points to, up to the NUL. -/
def strstr (oriptr : Str) (pattern : CString) : Option Str := search pattern.chars oriptr

/-- What `strncpy` writes. -/
def strncpy (source : Str) (n : Nat) : Str := source.take n ++ List.replicate (n - source.length) 0

/-- What `strcpy` writes. -/
def strcpy (source : Str) : Str := source ++ [0]

/-! ### The function -/

/-- The variables of the first loop. -/
structure Counting where
  oriptr : Str
  patloc : Option Str
  patcnt : UInt64 := 0

/-- In its last round the loop adds to a null pointer, and does not use the sum. -/
def countRound (pattern : CString) (s : Counting) : UInt64 ⊕ Counting :=
  match s.patloc with
  | none => .inl s.patcnt
  | some _ =>
    let patloc := strstr s.oriptr pattern
    .inr { patcnt := s.patcnt + 1, patloc, oriptr := patloc.elim [] fun p => p.drop (strlen pattern).toNat }

/-- The variables of the second loop; `retptr` is behind the last character written. -/
structure Copying where
  oriptr : Str
  written : Str := []

def copyRound (pattern replacement : CString) (s : Copying) : Str ⊕ Copying :=
  match strstr s.oriptr pattern with
  | none => .inl (s.written ++ strcpy s.oriptr)
  | some patloc =>
    let skplen := s.oriptr.length - patloc.length
    .inr { oriptr := patloc.drop (strlen pattern).toNat,
           written := s.written ++ strncpy s.oriptr skplen ++ strncpy replacement.chars (strlen replacement).toNat }

/-- The memory asked for, and the characters written from its start. -/
structure Returned where
  allocated : UInt64
  written : Str

/-- `Replace`, with a bound on the rounds of each loop; it returns `NULL` without the memory. -/
def replace (malloc : Malloc) (original pattern replacement : CString) (rounds : Nat) : Option (Option Returned) := do
  let replen := strlen replacement
  let patlen := strlen pattern
  let orilen := strlen original
  let patcnt ← loop (countRound pattern) rounds { oriptr := original.chars, patloc := strstr original.chars pattern }
  let retlen := orilen + patcnt * (replen - patlen)
  if malloc.grants (retlen + 1).toNat then
    let written ← loop (copyRound pattern replacement) rounds { oriptr := original.chars }
    return some { allocated := retlen + 1, written }
  else
    return none

/-! ### What it should do -/

variable (malloc : Malloc) (original pattern replacement : CString)

/-- Both loops end, what is written has room, and the string returned is the original with every occurrence of the
    pattern replaced. -/
def Replaced : Prop := ∃ rounds returned, replace malloc original pattern replacement rounds = some (some returned) ∧
  returned.written.length ≤ returned.allocated.toNat ∧
  cString returned.written = some (replaceAll pattern.chars replacement.chars original.chars)

/-- The occurrences, and one more if there are any. -/
def counted : Nat :=
  if occurrences pattern.chars original.chars = 0 then 0 else occurrences pattern.chars original.chars + 1

/-- The pattern is not empty, the replacement is no shorter unless there is nothing to replace, and there is memory for
    one occurrence more. -/
def Suitable : Prop :=
  pattern.chars ≠ [] ∧
  (occurrences pattern.chars original.chars = 0 ∨ pattern.chars.length ≤ replacement.chars.length) ∧
  malloc.grants (original.chars.length + counted original pattern *
    (replacement.chars.length - pattern.chars.length) + 1) = true

instance : Decidable (Suitable malloc original pattern replacement) := inferInstanceAs (Decidable (_ ∧ _ ∧ _))

/-! ### The loops -/

variable {malloc original pattern replacement}

theorem strlen_toNat (s : CString) : (strlen s).toNat = s.chars.length := by
  have hfits : s.chars.length < 2 ^ 63 - 1 := s.fits
  rw [strlen, UInt64.toNat_ofNat', Nat.mod_eq_of_lt (by omega)]

theorem strncpy_append (s t : Str) : strncpy (s ++ t) s.length = s := by
  simp [strncpy]

theorem strncpy_length (s : Str) : strncpy s s.length = s := by
  simpa using strncpy_append s []

/-- From a first occurrence on, the first loop counts it and all that follow. -/
theorem countRound_ends (hp : pattern.chars ≠ []) (oriptr : Str) : ∀ (patloc : Str) (patcnt : UInt64),
    Ends (countRound pattern) { oriptr, patloc := some patloc, patcnt }
      (patcnt + UInt64.ofNat (occurrences pattern.chars oriptr + 1)) := by
  induction oriptr using occurrences_induction hp with
  | none oriptr h =>
    intro patloc patcnt
    have hround : countRound pattern { oriptr, patloc := some patloc, patcnt } =
        .inr { oriptr := [], patloc := none, patcnt := patcnt + 1 } := by
      simp only [countRound, strstr, h, Option.elim_none]
    rw [(search_none h).2]
    exact Ends.round hround (ends_of_left rfl)
  | some oriptr t before after h hfound ih =>
    intro patloc patcnt
    have hround : countRound pattern { oriptr, patloc := some patloc, patcnt } =
        .inr { oriptr := after, patloc := some t, patcnt := patcnt + 1 } := by
      simp only [countRound, strstr, h, Option.elim_some, strlen_toNat, hfound.pattern, List.drop_left]
    rw [hfound.counted, Nat.add_comm _ 1, UInt64.ofNat_add, ← UInt64.add_assoc]
    exact Ends.round hround (ih t (patcnt + 1))

/-- The first loop counts the first occurrence twice. -/
theorem counts (hp : pattern.chars ≠ []) (original : CString) : Ends (countRound pattern)
    { oriptr := original.chars, patloc := strstr original.chars pattern }
    (UInt64.ofNat (counted original pattern)) := by
  cases h : strstr original.chars pattern with
  | none =>
    rw [counted, if_pos (search_none h).2]
    exact ends_of_left rfl
  | some patloc =>
    obtain ⟨before, after, hfound⟩ := search_some hp h
    have hends := countRound_ends hp original.chars patloc 0
    rw [UInt64.zero_add] at hends
    rwa [counted, if_neg (by rw [hfound.counted]; exact Nat.succ_ne_zero _)]

/-- An empty pattern is found wherever it is searched, and the first loop stays where it is. -/
theorem not_counts (hp : pattern.chars = []) (original : CString) (patcnt : UInt64) : ¬ Ends (countRound pattern)
    { oriptr := original.chars, patloc := strstr original.chars pattern } patcnt := by
  have hfound : ∀ oriptr, strstr oriptr pattern = some oriptr := fun oriptr => by
    rw [strstr, hp, search_nil]
  refine not_ends (I := fun s => s.patloc ≠ none) (fun s hs => ?_) (by rw [hfound]; exact Option.some_ne_none _)
  obtain ⟨patloc, hpatloc⟩ := Option.ne_none_iff_exists'.mp hs
  refine ⟨{ s with patcnt := s.patcnt + 1, patloc := some s.oriptr, oriptr := s.oriptr.drop (strlen pattern).toNat },
    ?_, Option.some_ne_none _⟩
  simp only [countRound, hpatloc, hfound, Option.elim_some]

/-- The second loop writes the string that is asked for. -/
theorem copies (hp : pattern.chars ≠ []) (oriptr : Str) : ∀ written : Str,
    Ends (copyRound pattern replacement) { oriptr, written }
      (written ++ (replaceAll pattern.chars replacement.chars oriptr ++ [0])) := by
  induction oriptr using occurrences_induction hp with
  | none oriptr h =>
    intro written
    rw [(search_none h).1]
    refine ends_of_left ?_
    simp only [copyRound, strstr, h, strcpy]
  | some oriptr t before after h hfound ih =>
    intro written
    have hskip : oriptr.length - t.length = before.length := by
      rw [hfound.text, List.length_append, Nat.add_sub_cancel]
    have hround : copyRound pattern replacement { oriptr, written } =
        .inr { oriptr := after, written := written ++ before ++ replacement.chars } := by
      simp only [copyRound, strstr, h, hskip, strlen_toNat, strncpy_length]
      rw [hfound.text, strncpy_append, hfound.pattern, List.drop_left]
    have hends := Ends.round hround (ih (written ++ before ++ replacement.chars))
    rw [hfound.replaced]
    simpa only [List.append_assoc] using hends

/-- The memory that is asked for. -/
def askedFor (original pattern replacement : CString) : UInt64 :=
  strlen original + UInt64.ofNat (counted original pattern) * (strlen replacement - strlen pattern) + 1

/-- With a pattern the function ends, on the whole string if there is memory. -/
theorem replace_eq_some (hp : pattern.chars ≠ []) {returned : Returned} :
    (∃ rounds, replace malloc original pattern replacement rounds = some (some returned)) ↔
      malloc.grants (askedFor original pattern replacement).toNat = true ∧ returned = {
        allocated := askedFor original pattern replacement
        written := replaceAll pattern.chars replacement.chars original.chars ++ [0] } := by
  obtain ⟨n, hn⟩ := counts hp original
  obtain ⟨m, hm⟩ : Ends (copyRound pattern replacement) { oriptr := original.chars } _ := copies hp original.chars []
  constructor
  · rintro ⟨rounds, h⟩
    obtain ⟨patcnt, hpatcnt, h⟩ := Option.bind_eq_some_iff.mp h
    obtain rfl := Ends.unique ⟨rounds, hpatcnt⟩ ⟨n, hn⟩
    dsimp only at h
    split at h
    · next hgrants =>
      obtain ⟨written, hwritten, h⟩ := Option.bind_eq_some_iff.mp h
      obtain rfl := Ends.unique ⟨rounds, hwritten⟩ ⟨m, hm⟩
      cases h
      exact ⟨hgrants, rfl⟩
    · cases h
  · rintro ⟨hgrants, rfl⟩
    refine ⟨max n m, ?_⟩
    rw [askedFor] at hgrants
    rw [replace, loop_mono hn (Nat.le_max_left n m)]
    simp only [Option.bind_eq_bind, Option.bind_some, hgrants, if_true, loop_mono hm (Nat.le_max_right n m)]
    rfl

/-- Without one it never ends. -/
theorem replace_ne_some (hp : pattern.chars = []) (rounds : Nat) (returned : Option Returned) :
    replace malloc original pattern replacement rounds ≠ some returned := by
  intro h
  obtain ⟨patcnt, hpatcnt, -⟩ := Option.bind_eq_some_iff.mp h
  exact not_counts hp original patcnt ⟨rounds, hpatcnt⟩

/-- What is written is always the string that is asked for, so only the room for it matters. -/
theorem replaced_iff_room : Replaced malloc original pattern replacement ↔ pattern.chars ≠ [] ∧
    malloc.grants (askedFor original pattern replacement).toNat = true ∧
    (replaceAll pattern.chars replacement.chars original.chars).length < (askedFor original pattern replacement).toNat := by
  by_cases hp : pattern.chars = []
  · refine iff_of_false ?_ fun h => h.1 hp
    rintro ⟨rounds, returned, h, -⟩
    exact replace_ne_some hp rounds _ h
  · have hnul : 0 ∉ replaceAll pattern.chars replacement.chars original.chars := fun h =>
      (mem_replaceAll hp h).elim original.noNul replacement.noNul
    constructor
    · rintro ⟨rounds, returned, h, hroom, -⟩
      obtain ⟨hgrants, rfl⟩ := (replace_eq_some hp).mp ⟨rounds, h⟩
      rw [List.length_append] at hroom
      exact ⟨hp, hgrants, hroom⟩
    · rintro ⟨-, hgrants, hroom⟩
      obtain ⟨rounds, h⟩ := (replace_eq_some hp).mpr ⟨hgrants, rfl⟩
      refine ⟨rounds, _, h, ?_, cString_eq_some.mpr ⟨hnul, List.prefix_refl _⟩⟩
      rw [List.length_append]
      exact hroom

/-! ### Unsigned arithmetic -/

theorem toNat_add_modEq (a b : UInt64) : ((a + b).toNat : ℤ) ≡ a.toNat + b.toNat [ZMOD 2 ^ 64] := by
  rw [UInt64.toNat_add]
  push_cast
  exact Int.mod_modEq _ _

theorem toNat_mul_modEq (a b : UInt64) : ((a * b).toNat : ℤ) ≡ a.toNat * b.toNat [ZMOD 2 ^ 64] := by
  rw [UInt64.toNat_mul]
  push_cast
  exact Int.mod_modEq _ _

theorem toNat_sub_modEq (a b : UInt64) : ((a - b).toNat : ℤ) ≡ a.toNat - b.toNat [ZMOD 2 ^ 64] := by
  have hb := b.toNat_lt
  have hsub : (a - b).toNat = (2 ^ 64 - b.toNat + a.toNat) % 2 ^ 64 := UInt64.toNat_sub a b
  unfold Int.ModEq
  omega

theorem toNat_ofNat_modEq (n : Nat) : ((UInt64.ofNat n).toNat : ℤ) ≡ n [ZMOD 2 ^ 64] := by
  rw [UInt64.toNat_ofNat']
  push_cast
  exact Int.mod_modEq _ _

/-- The memory asked for, but for what wraps around. -/
theorem askedFor_modEq (original pattern replacement : CString) : ((askedFor original pattern replacement).toNat : ℤ) ≡
    original.chars.length + counted original pattern * (replacement.chars.length - pattern.chars.length) + 1
      [ZMOD 2 ^ 64] := by
  have hgrowth := (toNat_ofNat_modEq (counted original pattern)).mul
    (toNat_sub_modEq (strlen replacement) (strlen pattern))
  have hproduct := (toNat_mul_modEq _ _).trans hgrowth
  have hretlen := (toNat_add_modEq (strlen original) _).trans (hproduct.add_left _)
  have hsize := (toNat_add_modEq _ 1).trans (hretlen.add_right _)
  simp only [strlen_toNat] at hsize
  exact hsize

/-- The memory asked for is what a replacement that is no shorter needs, unless that wraps around. -/
theorem askedFor_of_growing (h : occurrences pattern.chars original.chars = 0 ∨
    pattern.chars.length ≤ replacement.chars.length) : (askedFor original pattern replacement).toNat =
      (original.chars.length + counted original pattern *
        (replacement.chars.length - pattern.chars.length) + 1) % 2 ^ 64 := by
  have hasked := askedFor_modEq original pattern replacement
  have hlt := (askedFor original pattern replacement).toNat_lt
  have hgrowth : (counted original pattern * (replacement.chars.length - pattern.chars.length) : ℤ) =
      (counted original pattern * (replacement.chars.length - pattern.chars.length) : Nat) := by
    rcases h with hnone | hle
    · rw [counted, if_pos hnone]
      simp
    · push_cast [hle]
      rfl
  rw [hgrowth] at hasked
  unfold Int.ModEq at hasked
  omega

/-- Room and memory for one more occurrence. -/
theorem room_of_growing (hp : pattern.chars ≠ []) (h : occurrences pattern.chars original.chars = 0 ∨
    pattern.chars.length ≤ replacement.chars.length) :
    malloc.grants (askedFor original pattern replacement).toNat = true ∧
      (replaceAll pattern.chars replacement.chars original.chars).length <
        (askedFor original pattern replacement).toNat ↔
    malloc.grants (original.chars.length + counted original pattern *
      (replacement.chars.length - pattern.chars.length) + 1) = true := by
  have hasked := askedFor_of_growing h
  have hreplacement : replacement.chars.length < 2 ^ 63 - 1 := replacement.fits
  -- the memory exceeds the string by one growth
  have hneeded : ∃ spare < 2 ^ 63, original.chars.length + counted original pattern *
      (replacement.chars.length - pattern.chars.length) + 1 =
        (replaceAll pattern.chars replacement.chars original.chars).length + spare + 1 := by
    have hlength := length_replaceAll hp replacement.chars original.chars
    by_cases hocc : occurrences pattern.chars original.chars = 0
    · rw [hocc, Nat.zero_mul, Nat.zero_mul] at hlength
      refine ⟨0, by decide, ?_⟩
      rw [counted, if_pos hocc, Nat.zero_mul]
      omega
    · obtain ⟨growth, hgrowth⟩ := Nat.exists_eq_add_of_le (h.resolve_left hocc)
      refine ⟨growth, by omega, ?_⟩
      rw [hgrowth, Nat.mul_add] at hlength
      rw [counted, if_neg hocc, hgrowth, Nat.add_sub_cancel_left, Nat.succ_mul]
      omega
  obtain ⟨spare, hspare, hneeded⟩ := hneeded
  rw [hneeded] at hasked ⊢
  constructor
  · rintro ⟨hgrants, hroom⟩
    rwa [hasked, Nat.mod_eq_of_lt (by omega)] at hgrants
  · intro hgrants
    have hbound : _ ≤ 2 ^ 63 - 1 := malloc.bounded hgrants
    rw [hasked, Nat.mod_eq_of_lt (by omega)]
    exact ⟨hgrants, by omega⟩

/-- A shorter replacement has no room, since what it saves is taken off once more than it is saved. -/
theorem no_room_of_shrinking (hp : pattern.chars ≠ []) (hocc : occurrences pattern.chars original.chars ≠ 0)
    (hlt : replacement.chars.length < pattern.chars.length)
    (hgrants : malloc.grants (askedFor original pattern replacement).toNat = true) :
    (askedFor original pattern replacement).toNat ≤
      (replaceAll pattern.chars replacement.chars original.chars).length := by
  have hasked := askedFor_modEq original pattern replacement
  have hbound : _ ≤ 2 ^ 63 - 1 := malloc.bounded hgrants
  have hfits : original.chars.length < 2 ^ 63 - 1 := original.fits
  have hlength := length_replaceAll hp replacement.chars original.chars
  have hcovered := occurrences_mul_le hp original.chars
  obtain ⟨count, hcount⟩ := Nat.exists_eq_succ_of_ne_zero hocc
  obtain ⟨saved, hsaved⟩ := Nat.exists_eq_add_of_lt hlt
  rw [counted, if_neg hocc, hcount, hsaved] at hasked
  rw [hcount, hsaved] at hlength hcovered
  have hshrunk : (original.chars.length : ℤ) + ((count.succ + 1 : Nat) : ℤ) *
      (replacement.chars.length - (replacement.chars.length + saved + 1 : Nat)) + 1 =
        (replaceAll pattern.chars replacement.chars original.chars).length - saved := by
    have hint := congrArg (fun n : Nat => (n : ℤ)) hlength
    push_cast at hint ⊢
    linarith
  rw [hshrunk] at hasked
  unfold Int.ModEq at hasked
  rw [Nat.succ_mul] at hcovered
  omega

/-! ### The function on any strings -/

/-- The function replaces every occurrence if and only if the pattern is not empty, the replacement is no shorter than
    a pattern that occurs, and there is memory for one occurrence more. -/
theorem replaced_iff_suitable (malloc : Malloc) (original pattern replacement : CString) :
    Replaced malloc original pattern replacement ↔ Suitable malloc original pattern replacement := by
  rw [replaced_iff_room, Suitable]
  refine and_congr_right fun hp => ?_
  by_cases hgrowing : occurrences pattern.chars original.chars = 0 ∨ pattern.chars.length ≤ replacement.chars.length
  · rw [room_of_growing hp hgrowing, and_iff_right hgrowing]
  · obtain ⟨hocc, hlt⟩ := not_or.mp hgrowing
    refine iff_of_false ?_ fun h => hgrowing h.1
    rintro ⟨hgrants, hroom⟩
    exact Nat.not_lt.mpr (no_room_of_shrinking hp hocc (Nat.not_le.mp hlt) hgrants) hroom

/-- Memory whenever it can be had. -/
def Malloc.sample : Malloc where
  grants n := n ≤ ptrdiffMax
  bounded h := of_decide_eq_true h

def CString.sample (s : String) (h : 0 ∉ str s ∧ (str s).length < ptrdiffMax) : CString := ⟨str s, h.1, h.2⟩

/-- Four characters are written where there is room for three, and with an empty pattern nothing is returned. -/
theorem replace_overruns :
    ¬ Replaced .sample (.sample "xxab" (by decide)) (.sample "ab" (by decide)) (.sample "c" (by decide)) ∧
    ¬ Replaced .sample (.sample "ab" (by decide)) (.sample "" (by decide)) (.sample "c" (by decide)) := by
  constructor
  · rw [replaced_iff_room]
    rintro ⟨-, -, hroom⟩
    exact absurd hroom (by decide)
  · rw [replaced_iff_room]
    rintro ⟨hp, -⟩
    exact hp rfl

example : Suitable .sample (.sample "a b c" (by decide)) (.sample " " (by decide)) (.sample "%20" (by decide)) := by
  decide

end AwsMock.Core
