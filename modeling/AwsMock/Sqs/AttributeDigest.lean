import Mathlib.Algebra.Group.Nat.Defs
import AwsMock.Sqs.Dto

/-!
# The digest of message attributes

The byte stream `GetMd5MessageAttributes` feeds to the digest, beside the one AWS prescribes: for each
attribute, in the order of the names, the name, the data type, a byte for the transport type and the
value, where a string has its length in front of it.
-/

namespace AwsMock.Sqs

open Lib

/-! ### The two streams -/

/-- What is fed to the digest. -/
def messageAttributeStream (attributes : OrderedMap Str DtoMessageAttribute) : Str :=
  getMd5MessageAttributes id attributes

/-- Four bytes, the most significant one first. -/
def bigEndian (n : Nat) : Str := [3, 2, 1, 0].map fun i => UInt8.ofNat (n / 256 ^ i)

/-- A string behind its length. -/
def lengthPrefixed (s : Str) : Str := bigEndian s.length ++ s

def MessageAttributeDataType.transportType : MessageAttributeDataType → UInt8
  | .string | .number => 1
  | .binary => 2

/-- The value of an attribute. A number can be given as a string. -/
def DtoMessageAttribute.value (a : DtoMessageAttribute) : Str :=
  match a.type with
  | .string => a.stringValue
  | .number => if a.stringValue = [] then toStr a.numberValue else a.stringValue
  | .binary => a.binaryValue.getD []

def awsAttributeBytes (a : Str × DtoMessageAttribute) : Str :=
  lengthPrefixed a.1 ++ lengthPrefixed (messageAttributeDataTypeToString a.2.type) ++
    a.2.type.transportType :: lengthPrefixed a.2.value

/-- The stream AWS prescribes. -/
def awsAttributeStream (attributes : OrderedMap Str DtoMessageAttribute) : Str :=
  attributes.entries.flatMap awsAttributeBytes

/-- What two maps have to agree in. -/
def attributeContent (a : Str × DtoMessageAttribute) : Str × MessageAttributeDataType × UInt8 × Str :=
  (a.1, a.2.type, a.2.type.transportType, a.2.value)

/-- Attributes whose names and values are shorter than 2^24 bytes. -/
structure SizedAttributes where
  attributes : OrderedMap Str DtoMessageAttribute
  name_length : ∀ a ∈ attributes.entries, a.1.length < 2 ^ 24
  value_length : ∀ a ∈ attributes.entries, a.2.value.length < 2 ^ 24

/-- The attributes the digest is right about: they have a string, and are not binary. -/
def Digestible (a : Str × DtoMessageAttribute) : Prop := a.2.stringValue ≠ [] ∧ a.2.type ≠ .binary

/-! ### Lengths -/

theorem getIntAsByteArray_eq (n : Nat) : getIntAsByteArray n = bigEndian n := by
  simp [getIntAsByteArray, bigEndian]

theorem updateLengthAndBytes_eq (s : Str) : updateLengthAndBytes s = lengthPrefixed s := by
  rw [updateLengthAndBytes, getIntAsByteArray_eq, lengthPrefixed]

/-- The four bytes of a number below 2^32 tell it. -/
theorem bigEndian_inj {n m : Nat} (hn : n < 2 ^ 32) (hm : m < 2 ^ 32) (h : bigEndian n = bigEndian m) :
    n = m := by
  simp only [bigEndian, List.map_cons, List.map_nil, List.cons.injEq, and_true] at h
  obtain ⟨h₃, h₂, h₁, h₀⟩ := h
  replace h₃ := congrArg UInt8.toNat h₃
  replace h₂ := congrArg UInt8.toNat h₂
  replace h₁ := congrArg UInt8.toNat h₁
  replace h₀ := congrArg UInt8.toNat h₀
  simp only [UInt8.toNat_ofNat'] at h₃ h₂ h₁ h₀
  omega

/-- Below 2^24 the first byte is zero. -/
theorem lengthPrefixed_head {s : Str} (h : s.length < 2 ^ 24) (rest : Str) :
    (lengthPrefixed s ++ rest).head? = some 0 := by
  have hzero : s.length / 256 ^ 3 = 0 := Nat.div_eq_of_lt (by omega)
  rw [lengthPrefixed, bigEndian, List.map_cons, hzero]
  rfl

/-- A string behind its length is told from what follows it. -/
theorem lengthPrefixed_inj {s t rest rest' : Str} (hs : s.length < 2 ^ 24) (ht : t.length < 2 ^ 24)
    (h : lengthPrefixed s ++ rest = lengthPrefixed t ++ rest') : s = t ∧ rest = rest' := by
  rw [lengthPrefixed, lengthPrefixed, List.append_assoc, List.append_assoc] at h
  obtain ⟨hlength, htail⟩ := List.append_inj h (by simp [bigEndian])
  exact List.append_inj htail (bigEndian_inj (by omega) (by omega) hlength)

theorem dataType_length (type : MessageAttributeDataType) :
    (messageAttributeDataTypeToString type).length < 2 ^ 24 := by
  cases type <;> decide

theorem dataType_inj {type type' : MessageAttributeDataType}
    (h : messageAttributeDataTypeToString type = messageAttributeDataTypeToString type') :
    type = type' := by
  revert h
  cases type <;> cases type' <;> decide

/-! ### Attribute by attribute -/

/-- What the code feeds for one attribute. -/
def fedAttributeBytes (a : Str × DtoMessageAttribute) : Str :=
  lengthPrefixed a.1 ++ lengthPrefixed (messageAttributeDataTypeToString a.2.type) ++
    valueBytes a.2.stringValue

theorem messageAttributeStream_eq (attributes : OrderedMap Str DtoMessageAttribute) :
    messageAttributeStream attributes = attributes.entries.flatMap fedAttributeBytes := by
  simp only [messageAttributeStream, getMd5MessageAttributes, updateLengthAndBytes_eq, id]
  rfl

theorem fed_of_digestible {a : Str × DtoMessageAttribute} (h : Digestible a) :
    fedAttributeBytes a = awsAttributeBytes a := by
  obtain ⟨hvalue, htype⟩ := h
  have hsame : a.2.value = a.2.stringValue := by
    rw [DtoMessageAttribute.value]
    cases hcase : a.2.type with
    | string => rfl
    | number => exact if_neg hvalue
    | binary => exact absurd hcase htype
  have htransport : a.2.type.transportType = 1 := by
    cases hcase : a.2.type with
    | string | number => rfl
    | binary => exact absurd hcase htype
  rw [fedAttributeBytes, awsAttributeBytes, valueBytes, if_neg hvalue, updateLengthAndBytes_eq, hsame,
    htransport]

/-- Behind an attribute stands nothing, or the zero byte of the length of the next name. -/
theorem fed_head {es : List (Str × DtoMessageAttribute)} (hsized : ∀ a ∈ es, a.1.length < 2 ^ 24) :
    (es.flatMap fedAttributeBytes).head? = none ∨ (es.flatMap fedAttributeBytes).head? = some 0 := by
  rcases es with _ | ⟨a, es⟩
  · exact .inl rfl
  · rw [List.flatMap_cons, fedAttributeBytes, List.append_assoc, List.append_assoc]
    exact .inr (lengthPrefixed_head (hsized a (List.mem_cons_self ..)) _)

/-- The streams part at the first attribute that is not digestible: at the transport type. -/
theorem digestible_of_fed_eq : ∀ {es : List (Str × DtoMessageAttribute)},
    (∀ a ∈ es, a.1.length < 2 ^ 24) → es.flatMap fedAttributeBytes = es.flatMap awsAttributeBytes →
    ∀ a ∈ es, Digestible a
  | [], _, _, a, ha => by cases ha
  | e :: es, hsized, h, a, ha => by
      have hrest : ∀ a ∈ es, a.1.length < 2 ^ 24 := fun b hb => hsized b (List.mem_cons_of_mem _ hb)
      have htail : valueBytes e.2.stringValue ++ es.flatMap fedAttributeBytes =
          e.2.type.transportType :: (lengthPrefixed e.2.value ++ es.flatMap awsAttributeBytes) := by
        rw [List.flatMap_cons, List.flatMap_cons, fedAttributeBytes, awsAttributeBytes,
          List.append_assoc (_ ++ _), List.append_assoc (_ ++ _)] at h
        exact List.append_cancel_left h
      have hhead : Digestible e := by
        constructor
        · intro hempty
          rw [valueBytes, if_pos hempty, List.nil_append] at htail
          have hzero := fed_head hrest
          rw [htail] at hzero
          cases htype : e.2.type <;> simp [htype, MessageAttributeDataType.transportType] at hzero
        · intro hbinary
          rw [hbinary, valueBytes] at htail
          split at htail
          · have hzero := fed_head hrest
            rw [List.nil_append] at htail
            rw [htail] at hzero
            simp [MessageAttributeDataType.transportType] at hzero
          · simp [MessageAttributeDataType.transportType] at htail
      rcases List.mem_cons.mp ha with rfl | ha
      · exact hhead
      · refine digestible_of_fed_eq hrest ?_ a ha
        rw [List.flatMap_cons, List.flatMap_cons, fed_of_digestible hhead] at h
        exact List.append_cancel_left h

/-- The AWS stream tells the names, types and values of a map. -/
theorem content_of_aws : ∀ {es es' : List (Str × DtoMessageAttribute)},
    (∀ a ∈ es, a.1.length < 2 ^ 24 ∧ a.2.value.length < 2 ^ 24) →
    (∀ a ∈ es', a.1.length < 2 ^ 24 ∧ a.2.value.length < 2 ^ 24) →
    es.flatMap awsAttributeBytes = es'.flatMap awsAttributeBytes →
    es.map attributeContent = es'.map attributeContent
  | [], [], _, _, _ => rfl
  | [], e' :: es', _, _, h => by simp [awsAttributeBytes] at h
  | e :: es, [], _, _, h => by simp [awsAttributeBytes] at h
  | e :: es, e' :: es', hsized, hsized', h => by
      obtain ⟨hname, hvalue⟩ := hsized e (List.mem_cons_self ..)
      obtain ⟨hname', hvalue'⟩ := hsized' e' (List.mem_cons_self ..)
      simp only [List.flatMap_cons, awsAttributeBytes, List.append_assoc, List.cons_append] at h
      obtain ⟨hsame, h⟩ := lengthPrefixed_inj hname hname' h
      obtain ⟨htype, h⟩ := lengthPrefixed_inj (dataType_length _) (dataType_length _) h
      obtain ⟨-, h⟩ := List.cons.inj h
      obtain ⟨hvalues, h⟩ := lengthPrefixed_inj hvalue hvalue' h
      have ih := content_of_aws (fun a ha => hsized a (List.mem_cons_of_mem _ ha))
        (fun a ha => hsized' a (List.mem_cons_of_mem _ ha)) h
      rw [List.map_cons, List.map_cons, ih, attributeContent, attributeContent, hsame,
        dataType_inj htype, hvalues]

/-! ### Maps -/

theorem stream_eq_aws_iff (m : SizedAttributes) :
    messageAttributeStream m.attributes = awsAttributeStream m.attributes ↔
      ∀ a ∈ m.attributes.entries, Digestible a := by
  rw [messageAttributeStream_eq, awsAttributeStream]
  constructor
  · exact digestible_of_fed_eq m.name_length
  · intro h
    exact List.flatMap_congr fun a ha => fed_of_digestible (h a ha)

/-- The digest of two maps is fed the AWS streams, and different ones for different maps, exactly when
    all attributes of both have a string value and none is binary. -/
theorem attribute_digest_faithful (m m' : SizedAttributes) :
    ((messageAttributeStream m.attributes = messageAttributeStream m'.attributes →
          m.attributes.entries.map attributeContent = m'.attributes.entries.map attributeContent) ∧
        messageAttributeStream m.attributes = awsAttributeStream m.attributes ∧
        messageAttributeStream m'.attributes = awsAttributeStream m'.attributes) ↔
      (∀ a ∈ m.attributes.entries, Digestible a) ∧ ∀ a ∈ m'.attributes.entries, Digestible a := by
  rw [← stream_eq_aws_iff m, ← stream_eq_aws_iff m']
  constructor
  · rintro ⟨-, hm, hm'⟩
    exact ⟨hm, hm'⟩
  · rintro ⟨hm, hm'⟩
    refine ⟨fun hsame => ?_, hm, hm'⟩
    rw [hm, hm'] at hsame
    exact content_of_aws (fun a ha => ⟨m.name_length a ha, m.value_length a ha⟩)
      (fun a ha => ⟨m'.name_length a ha, m'.value_length a ha⟩) hsame

/-- The number attribute `n` with a number. -/
def numbered (numberValue : Int) (h : (toStr numberValue).length < 2 ^ 24) : SizedAttributes where
  attributes := (∅ : OrderedMap Str DtoMessageAttribute).insert (str "n")
    { numberValue := numberValue, type := .number }
  name_length a ha := by
    rw [List.mem_singleton.mp ha]
    exact (by decide : (str "n").length < 2 ^ 24)
  value_length a ha := by
    rw [List.mem_singleton.mp ha]
    exact h

/-- The numbers 1 and 2 are fed as the same bytes, without either. -/
theorem numbers_digested_alike :
    messageAttributeStream (numbered 1 (by decide)).attributes =
        messageAttributeStream (numbered 2 (by decide)).attributes ∧
      (numbered 1 (by decide)).attributes.entries.map attributeContent ≠
        (numbered 2 (by decide)).attributes.entries.map attributeContent ∧
      messageAttributeStream (numbered 1 (by decide)).attributes ≠
        awsAttributeStream (numbered 1 (by decide)).attributes := by
  refine ⟨by decide +kernel, by decide +kernel, by decide +kernel⟩

end AwsMock.Sqs
