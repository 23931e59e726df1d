import Mathlib.Data.List.TakeWhile
import AwsMock.Lib.Related
import AwsMock.S3.Steps

/-!
# The parts of an upload

`ListFilesByPrefix` lists the part files of an upload's directory by their numbers, and
`AppendBinaryFiles` copies them into one file.
-/

namespace AwsMock.S3

open Lib

/-- The parts of an upload, in the order of their listing. -/
def World.parts (w : World) (uploadId : Str) : Option (List Str) :=
  (w.uploads.get? uploadId).bind fun files =>
    match listFilesByPrefix files uploadId with
    | some (.ok names) => some (names.map fun name => (files.get? name).getD [])
    | _ => none

/-- The names that are listed. -/
def prefixed (directory : OrderedMap Str Str) (filePrefix : Str) : List Str :=
  (directory.entries.map Prod.fst).filter fun name => startsWith name filePrefix

variable {env : Env} {rt : Runtime} {w w' : World} {directory : OrderedMap Str Str} {filePrefix : Str}

theorem listFilesByPrefix_eq (directory : OrderedMap Str Str) (filePrefix : Str) :
    listFilesByPrefix directory filePrefix =
      if (prefixed directory filePrefix).length < 2 then some (.ok (prefixed directory filePrefix))
      else ((prefixed directory filePrefix).mapM fun name =>
        (substringKey name).map fun key => key.map fun k => (k, name)).map fun keyed => do
          let keyed ← keyed.mapM id
          return (keyed.mergeSort fun a b => a.1 ≤ b.1).map Prod.snd := rfl

theorem mapM_id_eq_ok {ε α : Type} : ∀ {xs : List (Except ε α)} {ys : List α},
    xs.mapM id = .ok ys ↔ xs = ys.map .ok
  | [], ys => by
    constructor
    · rintro ⟨⟩
      rfl
    · intro h
      rw [List.map_eq_nil_iff.mp h.symm]
      rfl
  | x :: xs, ys => by
    rw [List.mapM_cons, except_bind_eq_ok]
    constructor
    · rintro ⟨y, hy, h⟩
      obtain ⟨zs, hzs, h⟩ := except_bind_eq_ok.mp h
      cases h
      rw [List.map_cons, mapM_id_eq_ok.mp hzs]
      exact congrArg (· :: _) hy
    · intro h
      obtain ⟨y, zs, rfl, rfl, rfl⟩ := List.map_eq_cons_iff.mp h.symm
      exact ⟨y, rfl, except_bind_eq_ok.mpr ⟨zs, mapM_id_eq_ok.mpr rfl, rfl⟩⟩

/-- Sorting by numbers that are read from the names. -/
theorem listFilesByPrefix_keyed {names : List Str} (hlong : ¬ (prefixed directory filePrefix).length < 2) :
    listFilesByPrefix directory filePrefix = some (.ok names) ↔
      ∃ keyed : List (Int × Str), names = (keyed.mergeSort fun a b => a.1 ≤ b.1).map Prod.snd ∧
        List.Forall₂ (fun name key => substringKey name = some (.ok key.1) ∧ key.2 = name)
          (prefixed directory filePrefix) keyed := by
  rw [listFilesByPrefix_eq, if_neg hlong, Option.map_eq_some_iff]
  constructor
  · rintro ⟨tried, htried, h⟩
    obtain ⟨keyed, hkeyed, h⟩ := except_bind_eq_ok.mp h
    cases h
    rw [mapM_id_eq_ok.mp hkeyed] at htried
    refine ⟨keyed, rfl, ?_⟩
    have hall := mapM_eq_some.mp htried
    rw [List.forall₂_map_right_iff] at hall
    refine hall.imp fun name key h => ?_
    obtain ⟨number, hnumber, h⟩ := Option.map_eq_some_iff.mp h
    cases number with
    | error e => cases h
    | ok n => cases h; exact ⟨hnumber, rfl⟩
  · rintro ⟨keyed, rfl, hall⟩
    refine ⟨keyed.map .ok, ?_, ?_⟩
    · refine mapM_eq_some.mpr (List.forall₂_map_right_iff.mpr (hall.imp fun name key h => ?_))
      rw [h.1, ← h.2]
      rfl
    · rw [mapM_id_eq_ok.mpr rfl]
      rfl

/-- What is listed are the names with the prefix, in some order. -/
theorem listFilesByPrefix_perm {names : List Str}
    (h : listFilesByPrefix directory filePrefix = some (.ok names)) :
    names.Perm (prefixed directory filePrefix) := by
  by_cases hlong : (prefixed directory filePrefix).length < 2
  · rw [listFilesByPrefix_eq, if_pos hlong] at h
    cases h
    exact .refl _
  · obtain ⟨keyed, rfl, hall⟩ := (listFilesByPrefix_keyed hlong).mp h
    have hsame : keyed.map Prod.snd = prefixed directory filePrefix := by
      clear hlong h
      generalize prefixed directory filePrefix = names at hall
      induction hall with
      | nil => rfl
      | cons hkey _ ih => rw [List.map_cons, hkey.2, ih]
    rw [← hsame]
    exact (List.mergeSort_perm keyed _).map _

/-- Every file that is listed is there. -/
theorem mem_of_listed {names : List Str} {name : Str}
    (h : listFilesByPrefix directory filePrefix = some (.ok names)) (hname : name ∈ names) :
    ∃ content, directory.get? name = some content := by
  have hmem := (listFilesByPrefix_perm h).subset hname
  obtain ⟨⟨_, content⟩, hentry, rfl⟩ := List.mem_map.mp (List.mem_filter.mp hmem).1
  exact ⟨content, OrderedMap.get?_eq_some.mpr hentry⟩

/-- The parts listed are those of the upload's directory. -/
theorem listParts_run {uploadId : Str} {listed : Except S3Error (List Str)}
    (h : exec env rt (.listParts uploadId) w = some (listed, w')) :
    w'.uploads = w.uploads ∧ ∀ names, listed = .ok names →
      w.parts uploadId =
        some (names.map fun name => ((w.directory uploadId).get? name).getD []) ∧
      ∀ name ∈ names, ∃ content, (w.directory uploadId).get? name = some content := by
  obtain ⟨v, hv, rfl⟩ := exec_eq_some.mp h
  simp only [S3Call.apply] at hv
  rcases hfiles : w.uploads.get? uploadId with _ | files
  · rw [hfiles] at hv
    cases hv
    refine ⟨rfl, fun names h => ?_⟩
    cases h
  · rw [hfiles] at hv
    obtain ⟨result, hresult, he⟩ := Option.map_eq_some_iff.mp hv
    cases he
    refine ⟨rfl, ?_⟩
    rintro names rfl
    have hdirectory : w.directory uploadId = files := by rw [World.directory, hfiles]; rfl
    rw [hdirectory]
    refine ⟨?_, fun name hname => mem_of_listed hresult hname⟩
    rw [World.parts, hfiles, Option.bind_some, hresult]

/-! ### The names of part files -/

theorem stol_toStr (n : Nat) : stol (toStr n) = .ok n := by
  have hspace : (toStr n).dropWhile isSpace = toStr n := by
    rcases h : toStr n with _ | ⟨c, cs⟩
    · rfl
    · have hc : isDigit c := toStr_digits (n := n) (h ▸ List.mem_cons_self ..)
      have hno : isSpace c = false := by
        simp only [isDigit, isSpace, decide_eq_true_eq, decide_eq_false_iff_not, UInt8.le_iff_toNat_le,
          ← UInt8.toNat_inj] at hc ⊢
        simp at hc ⊢
        omega
      simp [hno]
  have hsign : signOf (toStr n) = (1, toStr n) := by
    rcases h : toStr n with _ | ⟨c, cs⟩
    · rfl
    · have hc : isDigit c := toStr_digits (n := n) (h ▸ List.mem_cons_self ..)
      have hminus : c ≠ byte '-' := by rintro rfl; exact absurd hc (by decide)
      have hplus : c ≠ byte '+' := by rintro rfl; exact absurd hc (by decide)
      simp [signOf, hminus, hplus]
  have hall : (toStr n).takeWhile isDigit = toStr n :=
    List.takeWhile_eq_self_iff.mpr fun c hc => toStr_digits hc
  simp [stol, hspace, hsign, hall, toStr_ne, digitsValue_toStr]

/-- The number of a part is read from the name of its file. -/
theorem substringKey_partName {uploadId : Str} (hdash : byte '-' ∉ uploadId) {part : Int}
    (hpart : 0 ≤ part) : substringKey (partName uploadId part) = some (.ok part) := by
  obtain ⟨n, rfl⟩ := Int.eq_ofNat_of_zero_le hpart
  have hdigits : byte '-' ∉ toStr n := fun h => absurd (toStr_digits h) (by decide)
  rw [substringKey, partName, split_append hdash, split_last hdigits (toStr_ne n)]
  simp [stol_toStr]

theorem partName_inj {uploadId : Str} (hdash : byte '-' ∉ uploadId) {part part' : Int} (hpart : 0 ≤ part)
    (hpart' : 0 ≤ part') (h : partName uploadId part = partName uploadId part') : part = part' := by
  have hkey := substringKey_partName hdash hpart
  rw [h, substringKey_partName hdash hpart', Option.some.injEq, Except.ok.injEq] at hkey
  exact hkey.symm

/-- A directory that holds the files of some parts lists them by their numbers. -/
theorem listFilesByPrefix_parts {uploadId : Str} {parts : OrderedMap Int Str}
    (hdash : byte '-' ∉ uploadId) (hpos : ∀ {part content}, parts.get? part = some content → 0 ≤ part)
    (hfiles : ∀ {name content}, directory.get? name = some content ↔
      ∃ part, name = partName uploadId part ∧ parts.get? part = some content) :
    listFilesByPrefix directory uploadId =
      some (.ok (parts.entries.map fun e => partName uploadId e.1)) := by
  have hentry : ∀ e ∈ parts.entries, 0 ≤ e.1 := fun e he => hpos (OrderedMap.get?_eq_some.mpr he)
  have hnames : ∀ name, name ∈ prefixed directory uploadId ↔
      name ∈ parts.entries.map fun e => partName uploadId e.1 := by
    intro name
    simp only [prefixed, List.mem_filter, List.mem_map]
    constructor
    · rintro ⟨⟨⟨_, content⟩, hmem, rfl⟩, -⟩
      obtain ⟨part, hname, hget⟩ := hfiles.mp (OrderedMap.get?_eq_some.mpr hmem)
      exact ⟨(part, content), OrderedMap.get?_eq_some.mp hget, hname.symm⟩
    · rintro ⟨⟨part, content⟩, hmem, rfl⟩
      refine ⟨⟨(partName uploadId part, content), ?_, rfl⟩, ?_⟩
      · exact OrderedMap.get?_eq_some.mp (hfiles.mpr ⟨part, rfl, OrderedMap.get?_eq_some.mpr hmem⟩)
      · simp [startsWith, partName]
  have hperm : (prefixed directory uploadId).Perm (parts.entries.map fun e => partName uploadId e.1) := by
    refine (List.perm_ext_iff_of_nodup ?_ ?_).mpr hnames
    · exact directory.keys_nodup.sublist List.filter_sublist
    · rw [List.nodup_iff_pairwise_ne, List.pairwise_map]
      refine parts.sorted.imp_of_mem fun he he' hlt hname => ?_
      exact hlt.ne (partName_inj hdash (hentry _ he) (hentry _ he') hname)
  by_cases hlong : (prefixed directory uploadId).length < 2
  · rw [listFilesByPrefix_eq, if_pos hlong]
    congr 2
    rcases h : prefixed directory uploadId with _ | ⟨name, _ | ⟨name', names⟩⟩
    · exact List.Perm.nil_eq (h ▸ hperm)
    · exact List.singleton_perm.mp (h ▸ hperm)
    · rw [h, List.length_cons, List.length_cons] at hlong
      omega
  · -- Both lists are sorted by the numbers, and a number belongs to one name.
    let keyed : Str → Int × Str := fun name => (((substringKey name).bind Except.toOption).getD 0, name)
    have hkeyed : ∀ e ∈ parts.entries, keyed (partName uploadId e.1) = (e.1, partName uploadId e.1) := by
      intro e he
      simp only [keyed, substringKey_partName hdash (hentry e he), Option.bind_some, Except.toOption, Option.getD_some]
    have hsort : (((prefixed directory uploadId).map keyed).mergeSort fun a b => a.1 ≤ b.1) =
        parts.entries.map fun e => (e.1, partName uploadId e.1) := by
      have hsame : (parts.entries.map fun e => partName uploadId e.1).map keyed =
          parts.entries.map fun e => (e.1, partName uploadId e.1) := by
        rw [List.map_map]
        exact List.map_congr_left hkeyed
      have hperm' := (List.mergeSort_perm ((prefixed directory uploadId).map keyed)
        fun a b => a.1 ≤ b.1).trans (hsame ▸ hperm.map keyed)
      refine @List.Perm.eq_of_pairwise _ (fun a b => a.1 ≤ b.1) _ _ ?_ ?_ ?_ hperm'
      · intro a b ha hb hle hle'
        obtain ⟨e, he, rfl⟩ := List.mem_map.mp (hperm'.subset ha)
        obtain ⟨e', he', rfl⟩ := List.mem_map.mp hb
        have heq : e.1 = e'.1 := le_antisymm hle hle'
        rw [heq]
      · have hsorted := @List.pairwise_mergeSort _ (fun a b : Int × Str => decide (a.1 ≤ b.1))
          (fun a b c => by simpa using le_trans) (fun a b => by simpa using le_total a.1 b.1)
          ((prefixed directory uploadId).map keyed)
        simpa using hsorted
      · rw [List.pairwise_map]
        exact parts.sorted.imp fun h => le_of_lt h
    refine (listFilesByPrefix_keyed hlong).mpr ⟨(prefixed directory uploadId).map keyed, ?_, ?_⟩
    · rw [hsort, List.map_map]
      rfl
    · rw [List.forall₂_map_right_iff, List.forall₂_same]
      intro name hname
      obtain ⟨e, he, rfl⟩ := List.mem_map.mp ((hnames name).mp hname)
      rw [hkeyed e he]
      exact ⟨substringKey_partName hdash (hentry e he), rfl⟩

/-! ### Appending -/

/-- `sendfile` copies a short file whole. -/
theorem sendfile_whole {content : Str} (h : content.length ≤ sendfileLimit) :
    sendfile content 0 content.length = content := by
  have hlimit : sendfileLimit < 18446744073709551616 := by decide
  have hlength : ((content.length : Int) % 18446744073709551616).toNat = content.length := by omega
  rw [sendfile, if_neg (by decide), hlength, Nat.min_eq_left h]
  exact List.take_length

/-- Parts that are short enough are appended whole, and their lengths add up. -/
theorem appendParts_eq {outFile uploadId : Str} {names : List Str}
    (hfresh : w.files.get? outFile = none) (hthere : ∀ name ∈ names, ∃ content,
      (w.directory uploadId).get? name = some content ∧ content.length ≤ sendfileLimit) :
    let content := (names.map fun name => ((w.directory uploadId).get? name).getD []).flatten
    w.appendParts outFile uploadId names =
      ((content.length : Int), { w with files := w.files.insert outFile content }) := by
  have happended : w.appended uploadId names =
      names.map fun name => some (((w.directory uploadId).get? name).getD []) := by
    refine List.map_congr_left fun name hname => ?_
    obtain ⟨content, hget, hshort⟩ := hthere name hname
    rw [hget, Option.map_some, sendfile_whole hshort]
    rfl
  have hread : w.read outFile = [] := by rw [World.read, hfresh]; rfl
  simp only [World.appendParts, happended, hread, overwrite, List.drop_nil, List.append_nil]
  refine Prod.ext ?_ ?_
  · simp only [List.map_map, List.length_flatten]
    clear hthere happended
    induction names with
    | nil => rfl
    | cons name names ih =>
      simp only [List.map_cons, List.sum_cons, Function.comp_apply, Option.elim_some, Int.natCast_add, ih]
  · simp [List.flatMap_map, List.flatten_eq_flatMap]

theorem appendParts_run {outFile uploadId : Str} {names : List Str} {size : Int}
    (h : exec env rt (.appendParts outFile uploadId names) w = some (size, w'))
    (hfresh : w.files.get? outFile = none) (hthere : ∀ name ∈ names, ∃ content,
      (w.directory uploadId).get? name = some content ∧ content.length ≤ sendfileLimit) :
    size = (names.map fun name => ((w.directory uploadId).get? name).getD []).flatten.length ∧
      w'.files = w.files.insert outFile
        (names.map fun name => ((w.directory uploadId).get? name).getD []).flatten := by
  obtain ⟨v, hv, rfl⟩ := exec_eq_some.mp h
  simp only [S3Call.apply, appendParts_eq hfresh hthere, Option.some.injEq, Prod.mk.injEq] at hv
  exact ⟨hv.1.symm, by rw [← hv.2]⟩

end AwsMock.S3
