import AwsMock.Lib.Split

/-!
# Paths

A path is a list of moves through a tree of directories, and a location is the list of the directories
entered, innermost first. `climb` walks without knowing where the path starts: it counts the directories
left above the start and collects the names entered since. `locate` reads a path written with slashes.
-/

namespace Lib

/-! ### Walks -/

/-- What one component of a path does. -/
inductive Move (α : Type) : Type
  | stay
  | up
  | into (name : α)
  deriving DecidableEq

variable {α : Type}

def Move.apply : Move α → List α → List α
  | .stay, here => here
  | .up, here => here.tail
  | .into name, here => name :: here

def walk (ms : List (Move α)) (here : List α) : List α := ms.foldl (fun here m => m.apply here) here

/-- How far a path climbs above its start, and what it enters from there. -/
structure Climb (α : Type) where
  ups : Nat := 0
  names : List α := []
  deriving DecidableEq

def Climb.apply : Move α → Climb α → Climb α
  | .stay, c => c
  | .up, ⟨n, []⟩ => ⟨n + 1, []⟩
  | .up, ⟨n, _ :: names⟩ => ⟨n, names⟩
  | .into name, ⟨n, names⟩ => ⟨n, name :: names⟩

def climb (ms : List (Move α)) : Climb α := ms.foldl (fun c m => c.apply m) {}

/-- Where a climb ends that starts here. -/
def Climb.from (c : Climb α) (here : List α) : List α := c.names ++ here.drop c.ups

@[simp] theorem walk_nil (here : List α) : walk [] here = here := rfl

@[simp] theorem walk_cons (m : Move α) (ms : List (Move α)) (here : List α) :
    walk (m :: ms) here = walk ms (m.apply here) := rfl

theorem walk_append (ms ms' : List (Move α)) (here : List α) :
    walk (ms ++ ms') here = walk ms' (walk ms here) := List.foldl_append

theorem Climb.from_apply (m : Move α) (c : Climb α) (here : List α) :
    (c.apply m).from here = m.apply (c.from here) := by
  rcases m with _ | _ | name
  · rfl
  · rcases c with ⟨n, _ | ⟨x, names⟩⟩
    · simp [Climb.apply, Climb.from, Move.apply]
    · rfl
  · rfl

/-- A walk is the climb from its start. -/
theorem walk_eq_climb (ms : List (Move α)) (here : List α) : walk ms here = (climb ms).from here := by
  have hfold : ∀ (ms : List (Move α)) (c : Climb α),
      walk ms (c.from here) = (ms.foldl (fun c m => c.apply m) c).from here := by
    intro ms
    induction ms with
    | nil => intro c; rfl
    | cons m ms ih =>
      intro c
      rw [walk_cons, ← Climb.from_apply, ih, List.foldl_cons]
  exact hfold ms {}

/-- A walk stays below its start exactly when it enters again what it climbs out of. -/
theorem start_suffix_walk_iff {ms : List (Move α)} {here : List α} :
    here <:+ walk ms here ↔ here.take (climb ms).ups <:+ (climb ms).names := by
  have hsplit : here = here.take (climb ms).ups ++ here.drop (climb ms).ups :=
    (List.take_append_drop _ _).symm
  rw [walk_eq_climb, Climb.from]
  constructor
  · rintro ⟨t, ht⟩
    refine ⟨t, (List.append_left_inj (here.drop (climb ms).ups)).mp ?_⟩
    rw [List.append_assoc, ← hsplit, ht]
  · rintro ⟨t, ht⟩
    refine ⟨t, ?_⟩
    rw [← ht, List.append_assoc, ← hsplit]

/-- A walk that never goes up. -/
theorem walk_into (names here : List α) : walk (names.map .into) here = names.reverse ++ here := by
  induction names generalizing here with
  | nil => rfl
  | cons name names ih => simp [ih, Move.apply]

/-- A walk that goes up and then into directories. -/
theorem climb_up_into (n : Nat) (names : List α) :
    climb (List.replicate n .up ++ names.map .into) = ⟨n, names.reverse⟩ := by
  have hup : ∀ n m : Nat,
      (List.replicate n Move.up).foldl (fun (c : Climb α) m => c.apply m) ⟨m, []⟩ = ⟨m + n, []⟩ := by
    intro n
    induction n with
    | zero => intro m; rfl
    | succ n ih =>
      intro m
      rw [List.replicate_succ, List.foldl_cons]
      exact (ih (m + 1)).trans (congrArg (Climb.mk · []) (by omega))
  have hinto : ∀ (names : List α) (c : Climb α),
      (names.map Move.into).foldl (fun c m => c.apply m) c = ⟨c.ups, names.reverse ++ c.names⟩ := by
    intro names
    induction names with
    | nil => intro c; rfl
    | cons name names ih =>
      intro c
      rw [List.map_cons, List.foldl_cons, ih, List.reverse_cons, List.append_assoc]
      rfl
  rw [climb, List.foldl_append]
  rw [show (List.replicate n Move.up).foldl (fun (c : Climb α) m => c.apply m) {} = ⟨n, []⟩ from
    (hup n 0).trans (by rw [Nat.zero_add]), hinto, List.append_nil]

theorem climb_into (names : List α) : climb (names.map .into) = ⟨0, names.reverse⟩ := climb_up_into 0 names

theorem walk_up (n : Nat) (here : List α) : walk (List.replicate n .up) here = here.drop n := by
  induction n generalizing here with
  | zero => rfl
  | succ n ih => simp [List.replicate_succ, ih, Move.apply]

/-! ### Paths written with slashes -/

def slash : UInt8 := byte '/'

/-- A component between two slashes. -/
def component (c : Str) : Move Str :=
  if c = [] ∨ c = str "." then .stay
  else if c = str ".." then .up
  else .into c

def moves (path : Str) : List (Move Str) := (split slash path).map component

def isAbsolute (path : Str) : Bool := path.head? = some slash

theorem isAbsolute_iff {path : Str} : isAbsolute path = true ↔ ∃ rest, path = slash :: rest := by
  rcases path with _ | ⟨c, rest⟩
  · simp [isAbsolute]
  · simp [isAbsolute]

/-- The location of a path, when `cwd` is the current directory. -/
def locate (cwd : List Str) (path : Str) : List Str :=
  walk (moves path) (if isAbsolute path then [] else cwd)

@[simp] theorem moves_slash (path : Str) : moves (slash :: path) = .stay :: moves path := rfl

/-- A slash between two paths makes one walk follow the other. -/
theorem walk_moves_slash (path rest : Str) (here : List Str) :
    walk (moves (path ++ slash :: rest)) here = walk (moves rest) (walk (moves path) here) := by
  have haux : ∀ (path acc : Str) (here : List Str),
      walk ((splitAux slash acc (path ++ slash :: rest)).map component) here =
        walk (moves rest) (walk ((splitAux slash acc path).map component) here) := by
    intro path
    induction path with
    | nil =>
      intro acc here
      rw [List.nil_append, splitAux, splitAux, if_pos rfl, List.map_cons, walk_cons]
      split
      · next hacc => rw [hacc]; rfl
      · rfl
    | cons c path ih =>
      intro acc here
      rw [List.cons_append, splitAux, splitAux]
      split
      · simp only [List.map_cons, walk_cons]
        exact ih [] _
      · exact ih _ here
  exact haux path [] here

theorem isAbsolute_append {path rest : Str} (h : path ≠ []) :
    isAbsolute (path ++ rest) = isAbsolute path := by
  obtain ⟨c, path, rfl⟩ := List.exists_cons_of_ne_nil h
  rfl

/-- A path below a directory is located from that directory. -/
theorem locate_below (cwd : List Str) {dir : Str} (hdir : dir ≠ []) (path : Str) :
    locate cwd (dir ++ slash :: path) = walk (moves path) (locate cwd dir) := by
  rw [locate, isAbsolute_append hdir, walk_moves_slash, locate]

/-- The name of a directory or file, and not a direction. -/
def IsName (c : Str) : Prop := c ≠ [] ∧ c ≠ str "." ∧ c ≠ str ".." ∧ slash ∉ c

theorem IsName.component {c : Str} (h : IsName c) : component c = .into c := by
  rw [Lib.component, if_neg (not_or.mpr ⟨h.1, h.2.1⟩), if_neg h.2.2.1]

/-- Components that are joined are found again. -/
theorem moves_join {cs : List Str} (h : ∀ c ∈ cs, c ≠ [] ∧ slash ∉ c) :
    moves (join slash cs) = cs.map component := by
  have hlast : cs.getLast? ≠ some [] := fun hlast => (h [] (List.mem_of_getLast? hlast)).1 rfl
  rw [moves, split_join (fun c hc => (h c hc).2) hlast]

theorem not_isAbsolute_join {cs : List Str} (h : ∀ c ∈ cs, c ≠ [] ∧ slash ∉ c) :
    isAbsolute (join slash cs) = false := by
  rcases cs with _ | ⟨c, cs⟩
  · rfl
  · obtain ⟨hne, hslash⟩ := h c (List.mem_cons_self ..)
    obtain ⟨b, c, rfl⟩ := List.exists_cons_of_ne_nil hne
    have hb : b ≠ slash := fun hb => hslash (by rw [hb]; exact List.mem_cons_self ..)
    rcases cs with _ | ⟨c', cs⟩ <;> simp [isAbsolute, join, hb]

/-- A component adds a name at most. -/
theorem Climb.apply_isName {c : Climb Str} {t : Str} (hc : ∀ name ∈ c.names, IsName name)
    (ht : slash ∉ t) : ∀ name ∈ (c.apply (component t)).names, IsName name := by
  unfold component
  split_ifs with hstay hup
  · exact hc
  · rcases c with ⟨n, _ | ⟨name, names⟩⟩
    · exact hc
    · exact fun name' hname => hc name' (List.mem_cons_of_mem _ hname)
  · intro name hname
    rcases List.mem_cons.mp hname with rfl | hname
    · exact ⟨fun h => hstay (Or.inl h), fun h => hstay (Or.inr h), hup, ht⟩
    · exact hc name hname

theorem climb_names_isName {tokens : List Str} (h : ∀ t ∈ tokens, slash ∉ t) {c : Climb Str}
    (hc : ∀ name ∈ c.names, IsName name) :
    ∀ name ∈ ((tokens.map component).foldl (fun c m => c.apply m) c).names, IsName name := by
  induction tokens generalizing c with
  | nil => exact hc
  | cons t tokens ih =>
    have hfirst := Climb.apply_isName hc (h t (List.mem_cons_self ..))
    exact ih (fun t' ht' => h t' (List.mem_cons_of_mem _ ht')) hfirst

theorem climb_moves_isName (path : Str) : ∀ name ∈ (climb (moves path)).names, IsName name :=
  climb_names_isName (fun _ => notMem_of_mem_split) (by simp)

end Lib
