import AwsMock.Lib.Bson
import Mathlib.Data.List.Forall2

/-!
# Collections of documents

The collections of a document database as its clients see them: documents in the order they were inserted,
each with its object id in front, read and changed by filters. A filter compares what a dotted path leads to
with a value; where a path meets an array, every element is looked at.

A program that keeps records of a type in a collection writes each of them as a document. `Holds` relates the
collection to the records, and the calls of the collection to those of a list.
-/

namespace Lib

abbrev Document := List (Str × Bson)

/-- The values that filters compare. Numbers of both widths are numbers. -/
inductive Scalar where
  | string (s : Str)
  | number (n : Int)
  | bool (b : Bool)
  | date (millis : Int)
  | oid (text : Str)
  deriving DecidableEq

/-- The order of numbers and of dates. -/
def Scalar.less : Scalar → Scalar → Bool
  | .number n, .number m => n < m
  | .date n, .date m => n < m
  | _, _ => false

namespace Bson

def scalar : Bson → Option Scalar
  | .string s => some (.string s)
  | .int32 n | .int64 n => some (.number n)
  | .bool b => some (.bool b)
  | .date millis => some (.date millis)
  | .oid text => some (.oid text)
  | .null | .document _ | .array _ => none

/-- What a path finds under a name: in a document, or in the documents of an array. -/
def members (name : Str) : Bson → List Bson
  | .array items => items.filterMap (memberOf name)
  | item => (memberOf name item).toList

def reach : List Str → Bson → List Bson
  | [], item => [item]
  | name :: path, item => (members name item).flatMap (reach path)

/-- An array is compared by its elements. -/
def leaves : Bson → List Bson
  | .array items => items
  | item => [item]

end Bson

/-- The right side of an entry of a filter. -/
inductive Test where
  | eq (value : Scalar)
  /-- `$lt`. -/
  | lt (value : Scalar)
  /-- `$gt`. -/
  | gt (value : Scalar)
  /-- `$elemMatch` with a single entry. -/
  | elemMatch (name : Str) (value : Scalar)

def Test.holds : Test → Bson → Bool
  | .eq value, item => item.leaves.any fun leaf => leaf.scalar = some value
  | .lt value, item => item.leaves.any fun leaf => leaf.scalar.any fun found => found.less value
  | .gt value, item => item.leaves.any fun leaf => leaf.scalar.any value.less
  | .elemMatch name value, .array items => items.any fun item => (Bson.memberOf name item).bind Bson.scalar = some value
  | .elemMatch .., _ => false

/-- The entries of a filter document, which all have to hold. -/
abbrev Query := List (Str × Test)

def Query.meets (query : Query) (doc : Document) : Bool :=
  query.all fun entry => (Bson.reach (entry.1.splitOn (byte '.')) (.document doc)).any entry.2.holds

/-- What a path without a dot leads to. -/
theorem Bson.reach_name {name : Str} (hname : byte '.' ∉ name) (doc : Document) :
    reach (name.splitOn (byte '.')) (.document doc) = (element name doc).toList := by
  rw [List.splitOn_eq_singleton hname]
  change (element name doc).toList.flatMap (reach []) = _
  cases element name doc <;> simp [reach]

/-- Nothing is found below an empty document. -/
theorem Bson.reach_below_empty {name : Str} {doc : Document} (hname : byte '.' ∉ name)
    (helement : element name doc = some (.document [])) (rest : Str) :
    reach ((name ++ byte '.' :: rest).splitOn (byte '.')) (.document doc) = [] := by
  rw [List.splitOn_append_cons_self_of_not_mem hname]
  change (element name doc).toList.flatMap (reach (rest.splitOn (byte '.'))) = []
  rw [helement]
  cases hrest : rest.splitOn (byte '.') with
  | nil => exact absurd hrest (List.splitOn_ne_nil _ _)
  | cons first path => simp [reach, members, memberOf, getDocument, element]

namespace Query

@[simp] theorem meets_nil (doc : Document) : meets [] doc = true := rfl

theorem meets_cons {name : Str} (hname : byte '.' ∉ name) (test : Test) (query : Query) (doc : Document) :
    meets ((name, test) :: query) doc = ((Bson.element name doc).any test.holds && query.meets doc) := by
  rw [meets, List.all_cons, Bson.reach_name hname]
  cases Bson.element name doc <;> simp [meets]

/-- An entry that finds nothing. -/
theorem meets_eq_false_of_mem {path : Str} {test : Test} {query : Query} {doc : Document} (hmem : (path, test) ∈ query)
    (hpath : Bson.reach (path.splitOn (byte '.')) (.document doc) = []) : query.meets doc = false := by
  refine List.all_eq_false.mpr ⟨_, hmem, ?_⟩
  rw [hpath]
  exact Bool.false_ne_true

/-- Fields that have to be these strings. -/
def equals (fields : List (Str × Str)) : Query := fields.map fun e => (e.1, .eq (.string e.2))

theorem meets_equals_cons {name s : Str} {doc : Document} (hname : byte '.' ∉ name)
    (helement : Bson.element name doc = some (.string s)) (value : Str) (fields : List (Str × Str)) :
    (equals ((name, value) :: fields)).meets doc = (decide (s = value) && (equals fields).meets doc) := by
  rw [equals, List.map_cons, meets_cons hname, helement]
  simp [equals, Test.holds, Bson.leaves, Bson.scalar]

/-- A field that the document lacks. -/
theorem meets_equals_none {name value : Str} {fields : List (Str × Str)} {doc : Document} (hname : byte '.' ∉ name)
    (hmem : (name, value) ∈ fields) (helement : Bson.element name doc = none) :
    (equals fields).meets doc = false := by
  have hentry : (name, Test.eq (.string value)) ∈ equals fields := List.mem_map.mpr ⟨_, hmem, rfl⟩
  refine meets_eq_false_of_mem hentry ?_
  rw [Bson.reach_name hname, helement, Option.toList_none]

theorem meets_append (query query' : Query) (doc : Document) :
    meets (query ++ query') doc = (query.meets doc && query'.meets doc) := List.all_append

end Query

/-! ### Calls -/

abbrev Collection := List Document

namespace Collection

def idName : Str := str "_id"

def find (query : Query) (coll : Collection) : List Document := coll.filter query.meets

def findOne (query : Query) (coll : Collection) : Option Document := coll.find? query.meets

def findById (oid : Str) (coll : Collection) : Option Document := findOne [(idName, .eq (.oid oid))] coll

def countDocuments (query : Query) (coll : Collection) : Nat := coll.countP query.meets

def insertOne (oid : Str) (fields : Document) (coll : Collection) : Collection :=
  coll ++ [(idName, .oid oid) :: fields]

/-- The document keeps its object id. -/
def replaceOne (query : Query) (fields : Document) : Collection → Collection
  | [] => []
  | doc :: coll =>
    if query.meets doc then (doc.take 1 ++ fields) :: coll else doc :: replaceOne query fields coll

def deleteMany (query : Query) (coll : Collection) : Collection := coll.filter fun doc => !query.meets doc

def deleteOne (query : Query) (coll : Collection) : Collection := coll.eraseP query.meets

/-- The deletion of one document is that of all when there are not two. -/
theorem deleteOne_eq_deleteMany {query : Query} : ∀ {coll : Collection}, coll.countDocuments query ≤ 1 →
    coll.deleteOne query = coll.deleteMany query
  | [], _ => rfl
  | doc :: coll, hcount => by
    by_cases hdoc : query.meets doc = true
    · rw [countDocuments, List.countP_cons_of_pos hdoc] at hcount
      have hrest : ∀ other ∈ coll, ¬ query.meets other = true := List.countP_eq_zero.mp (by omega)
      rw [deleteOne, List.eraseP_cons_of_pos hdoc, deleteMany, List.filter_cons_of_neg (by simp [hdoc])]
      exact (List.filter_eq_self.mpr fun other hother => by simp [hrest other hother]).symm
    · rw [countDocuments, List.countP_cons_of_neg hdoc] at hcount
      rw [deleteOne, List.eraseP_cons_of_neg hdoc, deleteMany, List.filter_cons_of_pos (by simp [hdoc])]
      exact congrArg (doc :: ·) (deleteOne_eq_deleteMany hcount)

/-- After a replacement that meets the filter, this is what the filter finds. -/
theorem findOne_replaceOne {query : Query} {doc fields : Document}
    (hmeets : query.meets (doc.take 1 ++ fields) = true) :
    ∀ {coll : Collection}, coll.findOne query = some doc →
      (coll.replaceOne query fields).findOne query = some (doc.take 1 ++ fields)
  | first :: coll, hfind => by
    rw [findOne, List.find?_cons] at hfind
    rw [replaceOne]
    split at hfind
    · next hfirst =>
      obtain rfl := Option.some.inj hfind
      rw [if_pos hfirst, findOne, List.find?_cons_of_pos hmeets]
    · next hfirst =>
      rw [if_neg (by rw [hfirst]; exact Bool.false_ne_true), findOne,
        List.find?_cons_of_neg (by rw [hfirst]; exact Bool.false_ne_true)]
      exact findOne_replaceOne hmeets hfind

/-- Nothing is found, and nothing replaced. -/
theorem replaceOne_eq_self {query : Query} {fields : Document} : ∀ {coll : Collection}, coll.findOne query = none →
    coll.replaceOne query fields = coll
  | [], _ => rfl
  | first :: coll, hfind => by
    obtain ⟨hfirst, hrest⟩ := List.forall_mem_cons.mp (List.find?_eq_none.mp hfind)
    rw [replaceOne, if_neg hfirst, replaceOne_eq_self (List.find?_eq_none.mpr hrest)]

end Collection

/-! ### Records -/

/-- How a program keeps its records: which ones it keeps, and what it writes for each. -/
structure Keeping (α : Type) where
  keeps : α → Prop
  write : α → Option Document

namespace Keeping

open Collection

variable {α β : Type} (K : Keeping α) (used : Str → Prop)

/-- A document that was written for a record, under an object id that was used. -/
def Keeps (doc : Document) (a : α) : Prop :=
  K.keeps a ∧ ∃ oid fields, used oid ∧ K.write a = some fields ∧ doc = (idName, .oid oid) :: fields

/-- The collection is that of the records, in some order. -/
def Holds (coll : Collection) (records : List α) : Prop :=
  ∃ as : List α, List.Forall₂ (K.Keeps used) coll as ∧ as.Perm records

/-- The filter is a predicate on the records. -/
def Selects (query : Query) (p : α → Bool) : Prop :=
  ∀ a oid fields, K.keeps a → K.write a = some fields → query.meets ((idName, .oid oid) :: fields) = p a

/-- What is read of a document is the record it was written for, but for what `erase` takes away. -/
def Reads (read : Document → Option β) (erase : β → α) : Prop :=
  ∀ a oid fields, K.keeps a → K.write a = some fields →
    ∃ b, read ((idName, .oid oid) :: fields) = some b ∧ erase b = a

variable {K used} {query : Query} {p : α → Bool} {read : Document → Option β} {erase : β → α} {doc : Document}
  {a : α} {coll : Collection} {records : List α}

/-- The empty filter. -/
theorem selects_all (K : Keeping α) : K.Selects [] fun _ => true := fun _ _ _ _ _ => rfl

theorem Selects.keeps (hp : K.Selects query p) (h : K.Keeps used doc a) : query.meets doc = p a := by
  obtain ⟨hkeeps, oid, fields, -, hwrite, rfl⟩ := h
  exact hp a oid fields hkeeps hwrite

theorem Selects.sieve (hp : K.Selects query p) {as : List α} (h : List.Forall₂ (K.Keeps used) coll as) :
    List.Forall₂ (K.Keeps used) (coll.filter query.meets) (as.filter p) ∧
      List.Forall₂ (K.Keeps used) (coll.filter fun doc => !query.meets doc) (as.filter fun a => !p a) := by
  induction h with
  | nil => exact ⟨.nil, .nil⟩
  | @cons doc a coll as hkeeps _ ih =>
    rw [List.filter_cons, List.filter_cons, List.filter_cons, List.filter_cons, hp.keeps hkeeps]
    cases p a with
    | true => exact ⟨.cons hkeeps ih.1, ih.2⟩
    | false => exact ⟨ih.1, .cons hkeeps ih.2⟩

theorem Reads.keeps (hread : K.Reads read erase) (h : K.Keeps used doc a) : ∃ b, read doc = some b ∧ erase b = a := by
  obtain ⟨hkeeps, oid, fields, -, hwrite, rfl⟩ := h
  exact hread a oid fields hkeeps hwrite

theorem Keeps.mono {used' : Str → Prop} (hused : ∀ oid, used oid → used' oid) (h : K.Keeps used doc a) :
    K.Keeps used' doc a := by
  obtain ⟨hkeeps, oid, fields, hoid, hwrite, rfl⟩ := h
  exact ⟨hkeeps, oid, fields, hused oid hoid, hwrite, rfl⟩

namespace Holds

theorem nil : K.Holds used [] [] := ⟨[], .nil, .refl _⟩

theorem mono {used' : Str → Prop} (hused : ∀ oid, used oid → used' oid) (h : K.Holds used coll records) :
    K.Holds used' coll records := by
  obtain ⟨as, hcoll, hperm⟩ := h
  exact ⟨as, hcoll.imp fun _ _ => Keeps.mono hused, hperm⟩

theorem perm {records' : List α} (h : K.Holds used coll records) (hperm : records.Perm records') :
    K.Holds used coll records' := by
  obtain ⟨as, hcoll, has⟩ := h
  exact ⟨as, hcoll, has.trans hperm⟩

theorem keeps_of_mem (h : K.Holds used coll records) (ha : a ∈ records) : K.keeps a := by
  obtain ⟨as, hcoll, hperm⟩ := h
  have hall : ∀ a ∈ as, K.keeps a :=
    ((List.forall₂_and_left as coll).mp (hcoll.flip.imp fun _ _ hkeeps => ⟨hkeeps.1, hkeeps⟩)).1
  exact hall a (hperm.mem_iff.mpr ha)

/-- A new document is found by its object id. -/
theorem findById_insertOne {oid : Str} (fields : Document) (h : K.Holds used coll records) (hoid : ¬ used oid) :
    (coll.insertOne oid fields).findById oid = some ((idName, .oid oid) :: fields) := by
  obtain ⟨as, hcoll, -⟩ := h
  have hmeets (oid' : Str) (fields : Document) :
      Query.meets [(idName, .eq (.oid oid))] ((idName, .oid oid') :: fields) = decide (oid' = oid) := by
    rw [Query.meets_cons (by decide), Bson.element, if_pos rfl]
    simp [Test.holds, Bson.leaves, Bson.scalar]
  rw [findById, findOne, insertOne, List.find?_append, List.find?_eq_none.mpr, Option.none_or, List.find?_cons_of_pos]
  · rw [hmeets]
    simp
  · have hall : ∀ doc ∈ coll, ∃ a, K.Keeps used doc a :=
      ((List.forall₂_and_left coll as).mp (hcoll.imp fun _ a hkeeps => ⟨⟨a, hkeeps⟩, hkeeps⟩)).1
    intro doc hdoc hfound
    obtain ⟨-, -, oid', fields', hused, -, rfl⟩ := hall doc hdoc
    rw [hmeets, decide_eq_true_iff] at hfound
    exact hoid (hfound ▸ hused)

theorem insertOne {oid : Str} {fields : Document} (h : K.Holds used coll records) (hoid : used oid) (ha : K.keeps a)
    (hwrite : K.write a = some fields) : K.Holds used (coll.insertOne oid fields) (a :: records) := by
  obtain ⟨as, hcoll, hperm⟩ := h
  refine ⟨as ++ [a], List.rel_append hcoll (.cons ⟨ha, oid, fields, hoid, hwrite, rfl⟩ .nil), ?_⟩
  exact (List.perm_append_singleton a as).trans (hperm.cons a)

theorem deleteMany (h : K.Holds used coll records) (hp : K.Selects query p) :
    K.Holds used (coll.deleteMany query) (records.filter fun a => !p a) := by
  obtain ⟨as, hcoll, hperm⟩ := h
  exact ⟨as.filter fun a => !p a, (hp.sieve hcoll).2, hperm.filter _⟩

theorem countDocuments (h : K.Holds used coll records) (hp : K.Selects query p) :
    coll.countDocuments query = records.countP p := by
  obtain ⟨as, hcoll, hperm⟩ := h
  rw [Collection.countDocuments, List.countP_eq_length_filter, (hp.sieve hcoll).1.length_eq,
    ← List.countP_eq_length_filter]
  exact hperm.countP_eq p

/-- The records that are found, as they are read. -/
theorem find (h : K.Holds used coll records) (hp : K.Selects query p) (hread : K.Reads read erase) :
    ∃ bs, (coll.find query).mapM read = some bs ∧ (bs.map erase).Perm (records.filter p) := by
  obtain ⟨as, hcoll, hperm⟩ := h
  have hreads : ∀ {docs : List Document} {as : List α}, List.Forall₂ (K.Keeps used) docs as →
      ∃ bs, docs.mapM read = some bs ∧ bs.map erase = as := by
    intro docs as hdocs
    induction hdocs with
    | nil => exact ⟨[], rfl, rfl⟩
    | cons hkeeps _ ih =>
      obtain ⟨b, hb, herase⟩ := hread.keeps hkeeps
      obtain ⟨bs, hbs, hmap⟩ := ih
      refine ⟨b :: bs, ?_, by rw [List.map_cons, herase, hmap]⟩
      rw [List.mapM_cons, hb, hbs]
      rfl
  obtain ⟨bs, hbs, hmap⟩ := hreads (hp.sieve hcoll).1
  exact ⟨bs, hbs, hmap ▸ hperm.filter p⟩

/-- One of the records is found, when there is one. -/
theorem findOne (h : K.Holds used coll records) (hp : K.Selects query p) :
    (coll.findOne query = none ∧ ∀ a ∈ records, p a = false) ∨
      ∃ doc a, coll.findOne query = some doc ∧ K.Keeps used doc a ∧ a ∈ records ∧ p a = true := by
  obtain ⟨as, hcoll, hperm⟩ := h
  have hfind : (coll.findOne query = none ∧ ∀ a ∈ as, p a = false) ∨
      ∃ doc a, coll.findOne query = some doc ∧ K.Keeps used doc a ∧ a ∈ as ∧ p a = true := by
    clear hperm
    induction hcoll with
    | nil => exact .inl ⟨rfl, nofun⟩
    | @cons doc a coll as hkeeps _ ih =>
      have hmeets := hp.keeps hkeeps
      rw [Collection.findOne, List.find?_cons, hmeets]
      cases ha : p a with
      | true => exact .inr ⟨doc, a, rfl, hkeeps, List.mem_cons_self, ha⟩
      | false =>
        rcases ih with ⟨hnone, hall⟩ | ⟨doc', a', hfound, hkeeps', hmem, ha'⟩
        · exact .inl ⟨hnone, List.forall_mem_cons.mpr ⟨ha, hall⟩⟩
        · exact .inr ⟨doc', a', hfound, hkeeps', List.mem_cons_of_mem _ hmem, ha'⟩
  rcases hfind with ⟨hnone, hall⟩ | ⟨doc, a, hfound, hkeeps, hmem, ha⟩
  · exact .inl ⟨hnone, fun a ha => hall a (hperm.mem_iff.mpr ha)⟩
  · exact .inr ⟨doc, a, hfound, hkeeps, hperm.mem_iff.mp hmem, ha⟩

/-- The record of the document found is replaced by another. -/
theorem replaceOne {b : α} {fields : Document} (h : K.Holds used coll records) (hfind : coll.findOne query = some doc)
    (hb : K.keeps b) (hwrite : K.write b = some fields) :
    ∃ a rest, K.Keeps used doc a ∧ records.Perm (a :: rest) ∧
      K.Holds used (coll.replaceOne query fields) (b :: rest) := by
  obtain ⟨as, hcoll, hperm⟩ := h
  have hreplace : ∃ a rest as', K.Keeps used doc a ∧ as.Perm (a :: rest) ∧
      List.Forall₂ (K.Keeps used) (coll.replaceOne query fields) as' ∧ as'.Perm (b :: rest) := by
    clear hperm
    induction hcoll with
    | nil => cases hfind
    | @cons first a coll as hkeeps hcoll ih =>
      rw [Collection.findOne, List.find?_cons] at hfind
      rw [Collection.replaceOne]
      split at hfind
      · next hfirst =>
        obtain rfl := Option.some.inj hfind
        refine ⟨a, as, b :: as, hkeeps, .refl _, ?_, .refl _⟩
        obtain ⟨-, oid, old, hoid, -, rfl⟩ := hkeeps
        rw [if_pos hfirst]
        exact .cons ⟨hb, oid, fields, hoid, hwrite, rfl⟩ hcoll
      · next hfirst =>
        obtain ⟨a', rest, as', hkeeps', has, hcoll', has'⟩ := ih hfind
        rw [if_neg (by rw [hfirst]; exact Bool.false_ne_true)]
        exact ⟨a', a :: rest, a :: as', hkeeps', (has.cons a).trans (.swap ..), .cons hkeeps hcoll',
          (has'.cons a).trans (.swap ..)⟩
  obtain ⟨a, rest, as', hkeeps, has, hcoll', has'⟩ := hreplace
  exact ⟨a, rest, hkeeps, hperm.symm.trans has, as', hcoll', has'⟩

end Holds

end Keeping

end Lib
