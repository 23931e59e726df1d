import AwsMock.Lib.Path

/-!
# Paths of the FTP server

`cleanPath` as it is called, for paths that are not Windows paths, and what it keeps: the location.
-/

namespace AwsMock.Ftp

open Lib

/-- One turn of the loop of `cleanPath`: the components so far and the next one. -/
def pushComponent (absoluteRoot : Str) (components : List Str) (thisComponent : Str) : List Str :=
  if thisComponent = [] ∨ thisComponent = str "." then components
  else if thisComponent = str ".." then
    if absoluteRoot ≠ [] then components.dropLast
    -- `..` elements that were not resolved are not removed
    else if components ≠ [] ∧ components.getLast? ≠ some (str "..") then components.dropLast
    else components ++ [str ".."]
  else components ++ [thisComponent]

def cleanPath (path : Str) (outputSeparator : UInt8) : Str :=
  if path = [] then str "."
  else
    let absoluteRoot := if path.head? = some slash then [slash] else []
    let components := (split slash (path.drop absoluteRoot.length)).foldl (pushComponent absoluteRoot) []
    if components = [] ∧ absoluteRoot = [] then str "."
    else absoluteRoot ++ join outputSeparator components

def cleanPathNative (path : Str) : Str := cleanPath path slash

/-! ### The location of a cleaned path -/

/-- The components of a climb, written from the outside in. -/
def written (absoluteRoot : Str) (c : Climb Str) : List Str :=
  List.replicate (if absoluteRoot = [] then c.ups else 0) (str "..") ++ c.names.reverse

theorem getLast?_written {absoluteRoot : Str} {c : Climb Str} {name : Str} {names : List Str}
    (h : c.names = name :: names) : (written absoluteRoot c).getLast? = some name := by
  rw [written, h]
  simp

theorem written_names {absoluteRoot : Str} {c : Climb Str} {n : Nat} {name : Str} {names : List Str}
    (h : c = ⟨n, name :: names⟩) : (written absoluteRoot c).dropLast = written absoluteRoot ⟨n, names⟩ := by
  subst h
  simp [written, List.dropLast_append_of_ne_nil]

/-- The loop writes down the climb. -/
theorem pushComponent_written {absoluteRoot : Str} {c : Climb Str} {thisComponent : Str}
    (hnames : ∀ name ∈ c.names, name ≠ str "..") :
    pushComponent absoluteRoot (written absoluteRoot c) thisComponent =
      written absoluteRoot (c.apply (component thisComponent)) := by
  unfold pushComponent component
  split_ifs with hstay hup hroot hlast
  · rfl
  · -- at the root nothing is above
    rcases c with ⟨n, _ | ⟨name, names⟩⟩
    · simp [written, Climb.apply, hroot]
    · rw [written_names rfl]
      rfl
  · rcases c with ⟨n, _ | ⟨name, names⟩⟩
    · simp only [written, not_not.mp hroot, if_true, List.reverse_nil, List.append_nil] at hlast
      rcases n with _ | n
      · simp at hlast
      · simp [List.getLast?_replicate] at hlast
    · rw [written_names rfl]
      rfl
  · rcases c with ⟨n, _ | ⟨name, names⟩⟩
    · simp [written, Climb.apply, not_not.mp hroot, List.replicate_succ']
    · rw [getLast?_written rfl] at hlast
      have hne := hnames name (List.mem_cons_self ..)
      simp [written, hne] at hlast
  · simp [written, Climb.apply]

/-- The loop over the components of a path writes down its climb. -/
theorem foldl_pushComponent (absoluteRoot path : Str) :
    (split slash path).foldl (pushComponent absoluteRoot) [] = written absoluteRoot (climb (moves path)) := by
  have hfold : ∀ (tokens : List Str) (c : Climb Str), (∀ t ∈ tokens, slash ∉ t) →
      (∀ name ∈ c.names, IsName name) →
      tokens.foldl (pushComponent absoluteRoot) (written absoluteRoot c) =
        written absoluteRoot ((tokens.map component).foldl (fun c m => c.apply m) c) := by
    intro tokens
    induction tokens with
    | nil => intro c _ _; rfl
    | cons t tokens ih =>
      intro c ht hc
      have hfirst := Climb.apply_isName hc (ht t (List.mem_cons_self ..))
      rw [List.foldl_cons, pushComponent_written fun name hname => (hc name hname).2.2.1]
      exact ih _ (fun t' ht' => ht t' (List.mem_cons_of_mem _ ht')) hfirst
  have hnone : written absoluteRoot {} = [] := by simp [written]
  rw [← hnone]
  exact hfold _ {} (fun _ => notMem_of_mem_split) (by simp)

theorem written_word {absoluteRoot : Str} {c : Climb Str} (hc : ∀ name ∈ c.names, IsName name) :
    ∀ t ∈ written absoluteRoot c, t ≠ [] ∧ slash ∉ t := by
  intro t ht
  rcases List.mem_append.mp ht with ht | ht
  · rw [List.eq_of_mem_replicate ht]
    decide
  · have hname := hc t (List.mem_reverse.mp ht)
    exact ⟨hname.1, hname.2.2.2⟩

/-- Walking what was written is the climb. -/
theorem walk_written {c : Climb Str} (hc : ∀ name ∈ c.names, IsName name) (here : List Str) :
    walk ((written [] c).map component) here = c.from here := by
  have hnames : c.names.reverse.map component = c.names.reverse.map .into :=
    List.map_congr_left fun name hname => (hc name (List.mem_reverse.mp hname)).component
  have hups : (List.replicate c.ups (str "..")).map component = List.replicate c.ups .up := by
    rw [List.map_replicate]
    rfl
  rw [written, if_pos rfl, List.map_append, walk_append, hnames, hups, walk_up, walk_into,
    List.reverse_reverse, Climb.from]

/-- A path is cleaned to one of names, after `..` when it is not absolute. -/
theorem cleanPathNative_absolute (path : Str) :
    cleanPathNative (slash :: path) = slash :: join slash (climb (moves path)).names.reverse := by
  have hne : slash :: path ≠ [] := by simp
  simp only [cleanPathNative, cleanPath, if_neg hne, List.head?_cons, if_true, List.length_singleton,
    List.drop_one, List.tail_cons, foldl_pushComponent]
  simp [written]

theorem cleanPathNative_relative {path : Str} (hne : path ≠ []) (h : isAbsolute path = false) :
    cleanPathNative path = if written [] (climb (moves path)) = [] then str "."
      else join slash (written [] (climb (moves path))) := by
  have hhead : path.head? ≠ some slash := by simpa [isAbsolute] using h
  simp only [cleanPathNative, cleanPath, if_neg hne, if_neg hhead, List.length_nil, List.drop_zero,
    foldl_pushComponent, and_true, List.nil_append]

/-- A cleaned absolute path only enters directories. -/
theorem moves_cleanPathNative (path : Str) : moves (cleanPathNative (slash :: path)) =
    .stay :: (climb (moves path)).names.reverse.map .into := by
  have hnames : ∀ c ∈ (climb (moves path)).names.reverse, IsName c := fun c hc =>
    climb_moves_isName path c (List.mem_reverse.mp hc)
  rw [cleanPathNative_absolute, moves_slash, moves_join fun c hc => ⟨(hnames c hc).1, (hnames c hc).2.2.2⟩]
  rw [List.map_congr_left fun c hc => (hnames c hc).component]

theorem climb_cleanPathNative {path : Str} (h : isAbsolute path = true) :
    (climb (moves (cleanPathNative path))).ups = 0 := by
  obtain ⟨rest, rfl⟩ := isAbsolute_iff.mp h
  have hclimb := climb_into (climb (moves rest)).names.reverse
  rw [moves_cleanPathNative]
  exact congrArg Climb.ups hclimb

/-- Cleaning a path does not change where it leads. -/
theorem locate_cleanPathNative (cwd : List Str) (path : Str) :
    locate cwd (cleanPathNative path) = locate cwd path := by
  rcases habsolute : isAbsolute path with _ | _
  · have hnames := climb_moves_isName path
    by_cases hne : path = []
    · rw [hne]
      rfl
    have hlocate : locate cwd path = (climb (moves path)).from cwd := by
      rw [locate, habsolute, if_neg (by simp), walk_eq_climb]
    rw [cleanPathNative_relative hne habsolute, hlocate]
    split
    · next hnone =>
      rw [← walk_written hnames, hnone]
      rfl
    · rw [locate, not_isAbsolute_join (written_word hnames), if_neg (by simp),
        moves_join (written_word hnames), walk_written hnames]
  · obtain ⟨path, rfl⟩ := isAbsolute_iff.mp habsolute
    have hclean : isAbsolute (cleanPathNative (slash :: path)) = true := by
      rw [cleanPathNative_absolute]
      rfl
    have hwalk := walk_eq_climb (moves path) []
    rw [locate, locate, hclean, habsolute, if_pos rfl, moves_cleanPathNative, moves_slash, walk_cons, walk_cons,
      walk_into, List.reverse_reverse]
    simpa [Climb.from, Move.apply] using hwalk.symm

end AwsMock.Ftp
