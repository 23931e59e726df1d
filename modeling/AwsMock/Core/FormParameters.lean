import Mathlib.Data.List.Nodup
import AwsMock.Core.HttpUtils

/-!
# Form parameters

A list of names and values in the encoding `application/x-www-form-urlencoded`, sent as a payload or as
a query string, and what the functions of `HttpUtils` read from it.
-/

namespace AwsMock

open Lib

/-! ### The encoding -/

/-- The bytes the encoding keeps. -/
def isFormPlain (c : UInt8) : Bool := isAlphaNumeric c ∨ c ∈ str "*-._"

def formByte (c : UInt8) : Str :=
  if c = byte ' ' then [byte '+'] else if isFormPlain c then [c] else percent c

def formEncode (s : Str) : Str := s.flatMap formByte

/-- Names and values, no name twice. -/
structure Form where
  pairs : List (Str × Str)
  nodup : (pairs.map Prod.fst).Nodup

/-- A target up to its query. -/
structure UriPath where
  text : Str
  plain : byte '?' ∉ text

def formPair (p : Str × Str) : Str := formEncode p.1 ++ byte '=' :: formEncode p.2

def formPayload (form : Form) : Str := join (byte '&') (form.pairs.map formPair)

/-- The form as a payload, or as the query string of a path. -/
def formUri (form : Form) : Option UriPath → Str
  | none => formPayload form
  | some path => path.text ++ byte '?' :: formPayload form

/-- An escape has no reserved character. -/
theorem formEncode_plain {s : Str} {c : UInt8} (hc : c ∈ formEncode s) :
    c ≠ byte '&' ∧ c ≠ byte '=' ∧ c ≠ byte '?' := by
  have hplain : ∀ b, isFormPlain b → b ≠ byte '&' ∧ b ≠ byte '=' ∧ b ≠ byte '?' := by
    intro b hb
    refine ⟨?_, ?_, ?_⟩ <;> rintro rfl <;> exact absurd hb (by decide)
  have hdigit : ∀ n < 16, isFormPlain (hexDigit n) := by decide
  obtain ⟨b, -, hb⟩ := List.mem_flatMap.mp hc
  have hlt : b.toNat < 256 := b.toNat_lt
  unfold formByte at hb
  split at hb
  · rw [List.mem_singleton.mp hb]
    decide
  · split at hb
    · next hkeep =>
      rw [List.mem_singleton.mp hb]
      exact hplain b hkeep
    · simp only [percent, List.mem_cons, List.not_mem_nil, or_false] at hb
      rcases hb with rfl | rfl | rfl
      · decide
      · exact hplain _ (hdigit _ (by omega))
      · exact hplain _ (hdigit _ (by omega))

/-- Decoding gives the spaces back, and takes plus signs for spaces as well. -/
theorem urlDecode_formEncode (lib : PocoUri) (s : Str) :
    urlDecode lib (formEncode s) = .returns (replaceByte s (byte '+') (byte ' ')) := by
  have hbyte : ∀ c, formByte c = percent c ∧ (if c = byte ' ' then byte '+' else c) = c ∨
      formByte c = [if c = byte ' ' then byte '+' else c] ∧
        (if c = byte ' ' then byte '+' else c) ≠ byte '%' ∧
        (if c = byte ' ' then byte '+' else c) ≠ byte '?' := by
    intro c
    by_cases hspace : c = byte ' '
    · subst hspace
      exact .inr (by decide)
    · by_cases hplain : isFormPlain c
      · simp only [formByte, if_neg hspace, if_pos hplain]
        refine .inr ⟨trivial, ?_, ?_⟩ <;> rintro rfl <;> exact absurd hplain (by decide)
      · simp [formByte, hspace, hplain]
  rw [urlDecode, formEncode, decode_flatMap lib hbyte]
  simp only [pocoTry, Outcome.ofExcept, Outcome.returns_bind, Outcome.pure_eq, replaceByte,
    List.map_map, Outcome.returns.injEq]
  refine List.map_congr_left fun c _ => ?_
  by_cases hspace : c = byte ' '
  · subst hspace
    rfl
  · simp [hspace]

/-- A size that the encoding of every byte but a plain one increases. -/
def formSize (s : Str) : Nat := s.length + s.count (byte '+')

theorem formSize_append (s t : Str) : formSize (s ++ t) = formSize s + formSize t := by
  simp only [formSize, List.length_append, List.count_append]
  omega

theorem formByte_grows (c : UInt8) : formByte c = [c] ∨ formSize [c] < formSize (formByte c) := by
  unfold formByte
  split
  · next hspace =>
    subst hspace
    exact .inr (by decide)
  · split
    · exact .inl rfl
    · have hone : formSize [c] ≤ 2 := by
        have := List.count_le_length (a := byte '+') (l := [c])
        simp only [formSize, List.length_singleton] at this ⊢
        omega
      have hthree : 3 ≤ formSize (percent c) := by
        simp only [formSize, percent, List.length_cons]
        omega
      exact .inr (by omega)

theorem formEncode_grows (s : Str) : formEncode s = s ∨ formSize s < formSize (formEncode s) := by
  induction s with
  | nil => exact .inl rfl
  | cons c s ih =>
    have hcons : formEncode (c :: s) = formByte c ++ formEncode s := rfl
    have hsize : formSize (c :: s) = formSize [c] + formSize s := formSize_append [c] s
    rw [hcons, formSize_append, hsize]
    rcases formByte_grows c, ih with ⟨hc | hc, hs | hs⟩
    · exact .inl (by rw [hc, hs]; rfl)
    · rw [hc]
      exact .inr (by omega)
    · rw [hs]
      exact .inr (by omega)
    · exact .inr (by omega)

theorem formEncode_eq_nil {s : Str} : formEncode s = [] ↔ s = [] := by
  constructor
  · intro h
    rcases formEncode_grows s with heq | hlt
    · rw [← heq, h]
    · rw [h] at hlt
      exact absurd hlt (Nat.not_lt_zero _)
  · rintro rfl
    rfl

/-- A function that makes everything it changes bigger maps a list onto itself only by changing
    nothing. -/
theorem fixed_of_grows {α : Type} {f : α → α} {size : α → Nat}
    (hf : ∀ x, f x = x ∨ size x < size (f x)) {xs : List α} (hxs : ∀ x ∈ xs, ∃ y ∈ xs, f y = x) :
    ∀ x ∈ xs, f x = x := by
  intro x hx
  induction hn : size x using Nat.strong_induction_on generalizing x with
  | _ n ih =>
    obtain ⟨y, hy, rfl⟩ := hxs x hx
    rcases hf y with heq | hlt
    · rw [heq, heq]
    · rw [ih (size y) (hn ▸ hlt) y hy rfl, ih (size y) (hn ▸ hlt) y hy rfl]

/-! ### Reading a form -/

variable (lib : PocoUri) (form : Form) (path : Option UriPath)

theorem formPair_ne (p : Str × Str) : formPair p ≠ [] := by simp [formPair]

theorem formPair_plain {p : Str × Str} {c : UInt8} (hc : c ∈ formPair p) : c ≠ byte '&' ∧ c ≠ byte '?' := by
  rcases List.mem_append.mp hc with hname | hvalue
  · exact ⟨(formEncode_plain hname).1, (formEncode_plain hname).2.2⟩
  · rcases List.mem_cons.mp hvalue with rfl | hvalue
    · decide
    · exact ⟨(formEncode_plain hvalue).1, (formEncode_plain hvalue).2.2⟩

/-- The name and the value of a parameter are its tokens; an empty value is none. -/
theorem split_formPair (p : Str × Str) : split (byte '=') (formPair p) =
    formEncode p.1 :: if p.2 = [] then [] else [formEncode p.2] := by
  have hname : byte '=' ∉ formEncode p.1 := fun h => (formEncode_plain h).2.1 rfl
  have hvalue : byte '=' ∉ formEncode p.2 := fun h => (formEncode_plain h).2.1 rfl
  rw [formPair, split_append hname]
  split
  · next hempty => rw [hempty]; rfl
  · next hne => rw [split_last hvalue (mt formEncode_eq_nil.mp hne)]

theorem formPayload_plain : byte '?' ∉ formPayload form := by
  intro h
  rcases mem_join h with hd | ⟨t, ht, hc⟩
  · exact absurd hd (by decide)
  · obtain ⟨p, -, rfl⟩ := List.mem_map.mp ht
    exact (formPair_plain hc).2 rfl

/-- The parameters of a form are its pairs. -/
theorem queryParameters_form : queryParameters (formUri form path) = form.pairs.map formPair := by
  have hquery : getQueryString (formUri form path) = formPayload form := by
    cases path with
    | none => exact if_neg fun h => formPayload_plain form (contains_single.mp h)
    | some path =>
      have hcontains : contains (path.text ++ byte '?' :: formPayload form) [byte '?'] :=
        contains_single.mpr (by simp)
      exact (if_pos hcontains).trans (subStringAfter_append path.plain _)
  rw [queryParameters, hquery, formPayload, split_join]
  · intro t ht
    obtain ⟨p, -, rfl⟩ := List.mem_map.mp ht
    exact fun h => (formPair_plain h).1 rfl
  · intro hlast
    obtain ⟨p, -, hp⟩ := List.mem_map.mp (List.mem_of_getLast? hlast)
    exact formPair_ne p hp

theorem getQueryParameterValue_formPair (p : Str × Str) :
    getQueryParameterValue lib (formPair p) = .returns (replaceByte p.2 (byte '+') (byte ' ')) := by
  rw [getQueryParameterValue, split_formPair]
  by_cases hempty : p.2 = []
  · simp [hempty, replaceByte]
  · simp only [if_neg hempty]
    rw [decodeValue_eq, urlDecode_formEncode]

/-- A lookup finds the first pair whose name is encoded as the name that is looked for. -/
theorem findParameter_form (name : Str) : findParameter name (form.pairs.map formPair) =
    .returns ((form.pairs.find? fun p => formEncode p.1 = name).map formPair) := by
  have hscan : Scannable name (form.pairs.map formPair) := by
    intro h
    obtain ⟨p, -, hp⟩ := List.mem_map.mp (List.takeWhile_subset _ h)
    exact formPair_ne p hp
  have hnamed : (isNamed name ∘ formPair) = fun p => decide (formEncode p.1 = name) := by
    funext p
    simp [isNamed, split_formPair]
  rw [findParameter_eq, if_pos hscan, List.find?_map, hnamed]

/-! ### What comes back -/

/-- `GetQueryParameterValueByName` returns each name's value. -/
def ReadsValues : Prop :=
  ∀ p ∈ form.pairs, getQueryParameterValueByName lib (formUri form path) p.1 = .returns p.2

/-- `HasQueryParameter` is true of the listed names. -/
def ReadsNames : Prop :=
  ∀ name, hasQueryParameter (formUri form path) name =
    .returns ((form.pairs.map Prod.fst).contains name)

/-- `GetQueryParametersByPrefix` returns the values of the names with a prefix, in order. -/
def ReadsPrefix (start : Str) : Prop :=
  getQueryParametersByPrefix lib (formUri form path) start =
    .returns ((form.pairs.filter fun p => startsWith p.1 start).map Prod.snd)

/-- `GetQueryParameters` returns the pairs. -/
def ReadsPairs : Prop :=
  getQueryParameters (formUri form path) = .returns (.ofList form.pairs)

theorem readsNames_iff : ReadsNames form path ↔ ∀ p ∈ form.pairs, formEncode p.1 = p.1 := by
  have hhas : ∀ name, hasQueryParameter (formUri form path) name =
      .returns (form.pairs.find? fun p => formEncode p.1 = name).isSome := by
    intro name
    rw [hasQueryParameter, queryParameters_form, findParameter_form]
    simp
  constructor
  · intro h
    have hback : ∀ n ∈ form.pairs.map Prod.fst, ∃ m ∈ form.pairs.map Prod.fst, formEncode m = n := by
      intro n hn
      have hfound := (hhas n).symm.trans (h n)
      rw [Outcome.returns.injEq, List.contains_iff_mem.mpr hn, List.find?_isSome] at hfound
      obtain ⟨p, hp, hencode⟩ := hfound
      exact ⟨p.1, List.mem_map_of_mem hp, of_decide_eq_true hencode⟩
    have hfixed := fixed_of_grows formEncode_grows hback
    exact fun p hp => hfixed p.1 (List.mem_map_of_mem hp)
  · intro h name
    rw [hhas, Outcome.returns.injEq, Bool.eq_iff_iff, List.find?_isSome, List.contains_iff_mem]
    simp only [decide_eq_true_eq, List.mem_map]
    exact exists_congr fun p => and_congr_right fun hp => by rw [h p hp]

theorem readsValues_iff (hfixed : ∀ p ∈ form.pairs, formEncode p.1 = p.1) :
    ReadsValues lib form path ↔ ∀ p ∈ form.pairs, byte '+' ∉ p.2 := by
  refine forall₂_congr fun p hp => ?_
  have hfound : (form.pairs.find? fun q => formEncode q.1 = p.1) = some p := by
    have hsome : (form.pairs.find? fun q => decide (formEncode q.1 = p.1)).isSome :=
      List.find?_isSome.mpr ⟨p, hp, decide_eq_true (hfixed p hp)⟩
    obtain ⟨q, hq⟩ := Option.isSome_iff_exists.mp hsome
    have hmem := List.mem_of_find?_eq_some hq
    have hname : q.1 = p.1 := (hfixed q hmem).symm.trans (by simpa using List.find?_some hq)
    rw [hq, List.inj_on_of_nodup_map form.nodup hmem hp hname]
  rw [getQueryParameterValueByName, queryParameters_form, findParameter_form, hfound]
  simp only [Option.map_some, Outcome.returns_bind, getQueryParameterValue_formPair,
    Outcome.returns.injEq]
  exact replaceByte_eq_self (by decide)

theorem readsPrefix_iff (start : Str) : ReadsPrefix lib form path start ↔
    ∀ p ∈ form.pairs, startsWith p.1 start ∧ byte '+' ∉ p.2 := by
  have hvalues : getQueryParametersByPrefix lib (formUri form path) start =
      .returns (form.pairs.map fun p => replaceByte p.2 (byte '+') (byte ' ')) := by
    simp only [getQueryParametersByPrefix, ite_self, queryParameters_form]
    rw [List.mapM_map]
    exact Outcome.mapM_returns fun p _ => getQueryParameterValue_formPair lib p
  rw [ReadsPrefix, hvalues, Outcome.returns.injEq]
  constructor
  · intro h
    have hall : ∀ p ∈ form.pairs, startsWith p.1 start := by
      have hlength := congrArg List.length h
      rw [List.length_map, List.length_map] at hlength
      exact List.length_filter_eq_length_iff.mp hlength.symm
    rw [List.filter_eq_self.mpr hall] at h
    intro p hp
    exact ⟨hall p hp, (replaceByte_eq_self (by decide)).mp (List.map_inj_left.mp h p hp)⟩
  · intro h
    rw [List.filter_eq_self.mpr fun p hp => (h p hp).1]
    exact List.map_congr_left fun p hp => (replaceByte_eq_self (by decide)).mpr (h p hp).2

/-- The pair as it is sent. -/
def encodePair (p : Str × Str) : Str × Str := (formEncode p.1, formEncode p.2)

theorem encodePair_grows (p : Str × Str) : encodePair p = p ∨
    formSize p.1 + formSize p.2 < formSize (encodePair p).1 + formSize (encodePair p).2 := by
  rcases formEncode_grows p.1, formEncode_grows p.2 with ⟨hname | hname, hvalue | hvalue⟩
  · exact .inl (Prod.ext hname hvalue)
  all_goals
    simp only [encodePair]
    exact .inr (by first | (rw [hname]; omega) | (rw [hvalue]; omega) | omega)

/-- The map is filled with the pairs as they are sent; an empty value is not there to be read. -/
theorem foldlM_insertParameter : ∀ (ps : List (Str × Str)) (m : OrderedMap Str Str),
    (ps.map formPair).foldlM insertParameter m =
      if ∀ p ∈ ps, p.2 ≠ [] then
        .returns ((ps.map encodePair).foldl (fun m e => m.insert e.1 e.2) m)
      else .undefined
  | [], m => rfl
  | p :: ps, m => by
    rw [List.map_cons, List.foldlM_cons, insertParameter, split_formPair]
    by_cases hempty : p.2 = []
    · simp [hempty, Outcome.get]
    · simp only [if_neg hempty, Outcome.get, List.getElem?_cons_zero, List.getElem?_cons_succ,
        Outcome.returns_bind, Outcome.pure_eq, foldlM_insertParameter ps]
      have hall : (∀ q ∈ p :: ps, q.2 ≠ []) ↔ ∀ q ∈ ps, q.2 ≠ [] := by simp [hempty]
      by_cases hps : ∀ q ∈ ps, q.2 ≠ []
      · rw [if_pos hps, if_pos (hall.mpr hps)]
        rfl
      · rw [if_neg hps, if_neg (mt hall.mp hps)]

/-- Without a question mark there are no pairs at all, and nothing is decoded. -/
theorem readsPairs_iff : ReadsPairs form path ↔ form.pairs = [] ∨
    path.isSome ∧ ∀ p ∈ form.pairs, p.2 ≠ [] ∧ encodePair p = p := by
  have hpayload : byte '?' ∉ formUri form none := formPayload_plain form
  cases path with
  | none =>
    have hnone : getQueryParameters (formUri form none) = .returns ∅ :=
      if_neg fun h => hpayload (contains_single.mp h)
    rw [ReadsPairs, hnone, Outcome.returns.injEq]
    simp only [Option.isSome_none, Bool.false_eq_true, false_and, or_false]
    constructor
    · intro h
      refine List.eq_nil_iff_forall_not_mem.mpr fun p hp => ?_
      have hget := OrderedMap.get?_ofList form.nodup hp
      rw [← h] at hget
      cases hget
    · intro h
      rw [h]
      rfl
  | some path =>
    have hcontains : contains (formUri form (some path)) [byte '?'] :=
      contains_single.mpr (by simp [formUri])
    have hsome : getQueryParameters (formUri form (some path)) =
        if ∀ p ∈ form.pairs, p.2 ≠ [] then .returns (.ofList (form.pairs.map encodePair))
        else .undefined := by
      refine (if_pos hcontains).trans ?_
      rw [queryParameters_form, foldlM_insertParameter]
      rfl
    rw [ReadsPairs, hsome]
    simp only [Option.isSome_some, true_and]
    constructor
    · intro h
      split at h
      · next hvalues =>
        have hmaps := Outcome.returns.inj h
        have hback : ∀ p ∈ form.pairs, ∃ q ∈ form.pairs, encodePair q = p := by
          intro p hp
          have hget := OrderedMap.get?_ofList form.nodup hp
          rw [← hmaps] at hget
          exact List.mem_map.mp (OrderedMap.mem_of_get?_ofList hget)
        have hfixed := fixed_of_grows encodePair_grows hback
        exact .inr fun p hp => ⟨hvalues p hp, hfixed p hp⟩
      · cases h
    · rintro (hempty | h)
      · simp [hempty]
      · have hpairs : form.pairs.map encodePair = form.pairs := by
          conv_rhs => rw [← List.map_id form.pairs]
          exact List.map_congr_left fun p hp => (h p hp).2
        rw [if_pos fun p hp => (h p hp).1, hpairs]

/-! ### The round trip -/

/-- A form that comes back whole: the encoding changes no name, no value has a plus sign, every name
    starts with the prefix, and the pairs stand in a query string, without an empty value and
    unchanged by the encoding. -/
def ComesBack (start : Str) : Prop :=
  (∀ p ∈ form.pairs, formEncode p.1 = p.1) ∧ (∀ p ∈ form.pairs, byte '+' ∉ p.2) ∧
    (∀ p ∈ form.pairs, startsWith p.1 start) ∧
    (form.pairs = [] ∨ path.isSome ∧ ∀ p ∈ form.pairs, p.2 ≠ [] ∧ encodePair p = p)

/-- The four functions read a form back exactly when it comes back whole. -/
theorem form_round_trip (start : Str) :
    (ReadsValues lib form path ∧ ReadsNames form path ∧ ReadsPrefix lib form path start ∧
      ReadsPairs form path) ↔ ComesBack form path start := by
  rw [readsNames_iff, readsPrefix_iff, readsPairs_iff, ComesBack]
  constructor
  · rintro ⟨hvalues, hnames, hstart, hpairs⟩
    exact ⟨hnames, (readsValues_iff lib form path hnames).mp hvalues, fun p hp => (hstart p hp).1,
      hpairs⟩
  · rintro ⟨hnames, hplus, hstart, hpairs⟩
    exact ⟨(readsValues_iff lib form path hnames).mpr hplus, hnames,
      fun p hp => ⟨hstart p hp, hplus p hp⟩, hpairs⟩

/-- `1+1` under the name `a`. -/
def plusForm : Form := ⟨[(str "a", str "1+1")], by decide⟩

/-- The plus sign comes back as a blank, from a payload and from a query string. -/
theorem plusForm_not_read : getQueryParameterValueByName .standard (formUri plusForm none) (str "a") =
      .returns (str "1 1") ∧
    ¬ ReadsValues .standard plusForm none ∧ ¬ ReadsValues .standard plusForm (some ⟨str "/", by decide⟩) := by
  have hread : ∀ path, getQueryParameterValueByName .standard (formUri plusForm path) (str "a") =
      .returns (str "1 1") := by
    intro path
    rw [getQueryParameterValueByName, queryParameters_form, findParameter_form]
    decide +kernel
  refine ⟨hread none, fun h => ?_, fun h => ?_⟩
  · exact absurd ((hread _).symm.trans (h _ (List.mem_singleton_self _))) (by decide)
  · exact absurd ((hread _).symm.trans (h _ (List.mem_singleton_self _))) (by decide)

end AwsMock
