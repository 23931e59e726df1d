import AwsMock.Ftp.Filesystem

/-!
# Clean paths

`cleanPath` for the paths of Unix and of Windows, and the normal form that it gives them. A Windows path is
absolute with a drive or a host in front; both slashes separate its components.
-/

namespace AwsMock.Ftp.FileSystem

open Lib

def backslash : UInt8 := 92

def isSeparator (windowsPath : Bool) (c : UInt8) : Bool := c = slash ∨ windowsPath = true ∧ c = backslash

/-- `^[a-zA-Z]\:`. -/
def isLocalDrive : Str → Bool
  | c :: d :: _ => (65 ≤ c ∧ c ≤ 90 ∨ 97 ≤ c ∧ c ≤ 122) ∧ d = byte ':'
  | _ => false

/-- `^[/\\]{2}[^/\\]+`. -/
def isNetworkDrive : Str → Bool
  | a :: b :: c :: _ => isSeparator true a && isSeparator true b && !isSeparator true c
  | _ => false

def absoluteRoot (windowsPath : Bool) (path : Str) : Str :=
  if windowsPath then
    if isLocalDrive path then path.take 2
    else if isNetworkDrive path then path.take 2 ++ (path.drop 2).takeWhile fun c => !isSeparator true c
    else []
  else if path.head? = some slash then [slash] else []

/-- The components that the loop runs over. A component has neither slash in it, or only a backslash on Unix. -/
def components (windowsPath : Bool) (path : Str) : List Str :=
  split slash (path.map fun c => if isSeparator windowsPath c then slash else c)

def cleanPath (path : Str) (windowsPath : Bool) (outputSeparator : UInt8) : Str :=
  if path = [] then str "."
  else
    let root := absoluteRoot windowsPath path
    let cleaned := (components windowsPath (path.drop root.length)).foldl (pushComponent root) []
    if cleaned = [] ∧ root = [] then str "."
    else root ++ (if windowsPath = true ∧ root ≠ [] then [outputSeparator] else []) ++ join outputSeparator cleaned

/-- For Unix paths this is `Ftp.cleanPath`. -/
theorem cleanPath_unix (path : Str) (outputSeparator : UInt8) :
    cleanPath path false outputSeparator = Ftp.cleanPath path outputSeparator := by
  have hsame : ∀ s : Str, components false s = split slash s := by
    intro s
    have hmap : s.map (fun c => if isSeparator false c then slash else c) = s := by
      refine (List.map_congr_left fun c _ => ?_).trans (List.map_id s)
      by_cases hc : c = slash <;> simp [isSeparator, hc]
    rw [components, hmap]
  simp only [cleanPath, Ftp.cleanPath, hsame, absoluteRoot, Bool.false_eq_true, if_false, false_and, List.append_nil]

/-! ### The normal form -/

/-- What lies below the root: the separator after a drive or a host belongs to the root. -/
def below (windowsPath : Bool) (path : Str) : List Str :=
  let rest := path.drop (absoluteRoot windowsPath path).length
  components windowsPath
    (if windowsPath = true ∧ absoluteRoot windowsPath path ≠ [] ∧ rest.head?.any (isSeparator windowsPath) then rest.tail
      else rest)

/-- Where a path leads: the root, and the directories entered from there, innermost first. `cwd` is the current
    directory. -/
def located (windowsPath : Bool) (cwd : Str × List Str) (path : Str) : Str × List Str :=
  let root := absoluteRoot windowsPath path
  let ms := (components windowsPath (path.drop root.length)).map component
  if root = [] then (cwd.1, walk ms cwd.2) else (root, walk ms [])

/-- Cleaning again changes nothing, and the path stays absolute or relative and leads to the same place. -/
structure Stable (windowsPath : Bool) (outputSeparator : UInt8) (path : Str) : Prop where
  idempotent : cleanPath (cleanPath path windowsPath outputSeparator) windowsPath outputSeparator =
    cleanPath path windowsPath outputSeparator
  absolute : absoluteRoot windowsPath (cleanPath path windowsPath outputSeparator) = [] ↔ absoluteRoot windowsPath path = []
  located : ∀ cwd, located windowsPath cwd (cleanPath path windowsPath outputSeparator) = located windowsPath cwd path

/-- Names, after a run of `..` where the path is relative. -/
def Normal (root : Str) (cs : List Str) : Prop :=
  ∃ ups names, cs = List.replicate ups (str "..") ++ names ∧
    (∀ name ∈ names, name ≠ [] ∧ name ≠ str "." ∧ name ≠ str "..") ∧ (root ≠ [] → ups = 0)

/-- A relative Windows path does not come to a name with a drive in front, such as `.\C:name` does. -/
def Driveless (windowsPath : Bool) (path : Str) : Prop :=
  windowsPath = true → absoluteRoot windowsPath path = [] →
    ∀ name, (written [] (climb ((components windowsPath path).map component))).head? = some name →
      isLocalDrive name = false

variable {windowsPath : Bool} {path root : Str} {sep c : UInt8}

/-! ### Components -/

theorem isSeparator_slash (windowsPath : Bool) : isSeparator windowsPath slash = true := by simp [isSeparator]

theorem components_cons_separator (hc : isSeparator windowsPath c = true) (rest : Str) :
    components windowsPath (c :: rest) = [] :: components windowsPath rest := by
  rw [components, List.map_cons, if_pos hc]
  rfl

/-- No component has a separator. -/
theorem not_isSeparator_of_mem {cs : Str} (hcs : cs ∈ components windowsPath path) (hc : c ∈ cs) :
    isSeparator windowsPath c = false := by
  have hne : c ≠ slash := fun heq => notMem_of_mem_split hcs (heq ▸ hc)
  obtain ⟨d, -, hd⟩ := List.mem_map.mp (mem_of_mem_split hcs hc)
  rw [← Bool.not_eq_true]
  intro hsep
  split at hd
  · exact hne hd.symm
  · next hnot => exact hnot (hd ▸ hsep)

/-- Words without separators, joined by one, are the components again. -/
theorem components_join (hsep : isSeparator windowsPath sep = true) {cs : List Str}
    (hcs : ∀ t ∈ cs, t ≠ [] ∧ ∀ c ∈ t, isSeparator windowsPath c = false) : components windowsPath (join sep cs) = cs := by
  have hslash : ∀ t ∈ cs, slash ∉ t := by
    intro t ht hmem
    have hno := (hcs t ht).2 slash hmem
    rw [isSeparator_slash] at hno
    cases hno
  have hmap : ∀ {cs : List Str}, (∀ t ∈ cs, ∀ c ∈ t, isSeparator windowsPath c = false) →
      (join sep cs).map (fun c => if isSeparator windowsPath c then slash else c) = join slash cs := by
    intro cs
    have hword : ∀ t : Str, (∀ c ∈ t, isSeparator windowsPath c = false) →
        t.map (fun c => if isSeparator windowsPath c then slash else c) = t := by
      intro t ht
      refine (List.map_congr_left fun c hc => ?_).trans (List.map_id t)
      simp [ht c hc]
    induction cs with
    | nil => intro _; rfl
    | cons t cs ih =>
      intro h
      have ht := hword t (h t List.mem_cons_self)
      rcases cs with _ | ⟨u, cs⟩
      · exact ht
      · have hrest := ih fun t' ht' => h t' (List.mem_cons_of_mem _ ht')
        rw [join, join, List.map_append, List.map_cons, ht, hrest, if_pos hsep]
  rw [components, hmap fun t ht => (hcs t ht).2]
  refine split_join hslash fun hlast => ?_
  exact (hcs [] (List.mem_of_getLast? hlast)).1 rfl

/-- Joined words do not begin with a separator. -/
theorem head?_join {cs : List Str} (hcs : ∀ t ∈ cs, t ≠ [] ∧ ∀ c ∈ t, isSeparator windowsPath c = false)
    (hc : (join sep cs).head? = some c) : isSeparator windowsPath c = false := by
  rcases cs with _ | ⟨t, cs⟩
  · cases hc
  · obtain ⟨hne, ht⟩ := hcs t List.mem_cons_self
    obtain ⟨d, t, rfl⟩ := List.exists_cons_of_ne_nil hne
    have hhead : (join sep ((d :: t) :: cs)).head? = some d := by
      rcases cs with _ | ⟨u, cs⟩ <;> rfl
    obtain rfl := Option.some.inj (hhead.symm.trans hc)
    exact ht d List.mem_cons_self

/-! ### What is written -/

/-- The climb of a path from its root. -/
def climbed (windowsPath : Bool) (path : Str) : Climb Str :=
  climb ((components windowsPath (path.drop (absoluteRoot windowsPath path).length)).map component)

/-- A root and the components below it, written down. -/
def assemble (windowsPath : Bool) (sep : UInt8) (root : Str) (cs : List Str) : Str :=
  if cs = [] ∧ root = [] then str "."
  else root ++ (if windowsPath = true ∧ root ≠ [] then [sep] else []) ++ join sep cs

theorem cleanPath_eq (windowsPath : Bool) (sep : UInt8) (path : Str) : cleanPath path windowsPath sep =
    assemble windowsPath sep (absoluteRoot windowsPath path)
      (written (absoluteRoot windowsPath path) (climbed windowsPath path)) := by
  unfold cleanPath
  split
  · next hempty =>
    subst hempty
    cases windowsPath <;> rfl
  · simp only [components, foldl_pushComponent]
    rfl

theorem located_eq (windowsPath : Bool) (cwd : Str × List Str) (path : Str) : located windowsPath cwd path =
    if absoluteRoot windowsPath path = [] then (cwd.1, (climbed windowsPath path).from cwd.2)
    else (absoluteRoot windowsPath path, (climbed windowsPath path).names) := by
  simp only [located, walk_eq_climb, climbed, Climb.from, List.drop_nil, List.append_nil]

theorem climbed_isName (windowsPath : Bool) (path : Str) : ∀ name ∈ (climbed windowsPath path).names, IsName name :=
  climb_names_isName (fun _ => notMem_of_mem_split) (by simp)

/-- A climb enters components only. -/
theorem mem_of_mem_climb {tokens : List Str} {name : Str} (h : name ∈ (climb (tokens.map component)).names) :
    name ∈ tokens := by
  have hfold : ∀ (tokens : List Str) (c : Climb Str),
      name ∈ ((tokens.map component).foldl (fun c m => c.apply m) c).names → name ∈ c.names ∨ name ∈ tokens := by
    intro tokens
    induction tokens with
    | nil => exact fun c hc => .inl hc
    | cons t tokens ih =>
      intro c hc
      rcases ih _ hc with hfirst | hrest
      · revert hfirst
        unfold component
        split_ifs
        · exact .inl
        · rcases c with ⟨n, _ | ⟨x, names⟩⟩
          · exact .inl
          · exact fun h => .inl (List.mem_cons_of_mem _ h)
        · intro h
          rcases List.mem_cons.mp h with rfl | h
          · exact .inr List.mem_cons_self
          · exact .inl h
      · exact .inr (List.mem_cons_of_mem _ hrest)
  exact (hfold tokens {} h).resolve_left List.not_mem_nil

theorem words_written (windowsPath : Bool) (root path : Str) : ∀ t ∈ written root (climbed windowsPath path),
    t ≠ [] ∧ ∀ c ∈ t, isSeparator windowsPath c = false := by
  intro t ht
  rcases List.mem_append.mp ht with ht | ht
  · rw [List.eq_of_mem_replicate ht]
    refine ⟨by decide, fun c hc => ?_⟩
    have hdot : c = byte '.' := by simpa [str] using hc
    rw [hdot]
    cases windowsPath <;> decide
  · have hname := List.mem_reverse.mp ht
    exact ⟨(climbed_isName windowsPath path t hname).1, fun c hc => not_isSeparator_of_mem (mem_of_mem_climb hname) hc⟩

theorem map_written (root : Str) {c : Climb Str} (hc : ∀ name ∈ c.names, IsName name) :
    (written root c).map component =
      List.replicate (if root = [] then c.ups else 0) .up ++ c.names.reverse.map .into := by
  rw [written, List.map_append, List.map_replicate]
  refine congrArg₂ _ rfl (List.map_congr_left fun name hname => ?_)
  exact (hc name (List.mem_reverse.mp hname)).component

/-! ### The root of what is written -/

theorem isLocalDrive_head {t rest : Str} (ht : isLocalDrive t = false) (hne : t ≠ [])
    (hrest : ∀ c ∈ rest.head?, isSeparator true c = true) : isLocalDrive (t ++ rest) = false := by
  rcases t with _ | ⟨a, _ | ⟨b, t⟩⟩
  · exact absurd rfl hne
  · rcases rest with _ | ⟨d, rest⟩
    · rfl
    · have hd : d ≠ byte ':' := by
        rintro rfl
        exact absurd (hrest _ rfl) (by decide)
      simp [isLocalDrive, hd]
  · exact ht

/-- A root is found in front again. -/
theorem absoluteRoot_append (hsep : isSeparator windowsPath sep = true) (hroot : absoluteRoot windowsPath path ≠ [])
    (rest : Str) : absoluteRoot windowsPath (absoluteRoot windowsPath path ++
      (if windowsPath = true ∧ absoluteRoot windowsPath path ≠ [] then [sep] else []) ++ rest) =
        absoluteRoot windowsPath path := by
  rcases windowsPath with _ | _
  · unfold absoluteRoot at hroot ⊢
    simp only [Bool.false_eq_true, if_false] at hroot ⊢
    split at hroot
    · next hhead => simp [hhead]
    · exact absurd rfl hroot
  · simp only [true_and, hroot, ne_eq, not_false_iff, if_true]
    unfold absoluteRoot at hroot ⊢
    simp only [if_true] at hroot ⊢
    split at hroot
    · next hdrive =>
      -- a letter and a colon
      rcases path with _ | ⟨a, _ | ⟨b, path⟩⟩
      · cases hdrive
      · cases hdrive
      · have hagain : isLocalDrive (a :: b :: sep :: rest) = true := hdrive
        simp only [hdrive, if_true, List.take_succ_cons, List.take_zero, List.cons_append, List.nil_append]
        rw [if_pos hagain]
    · next hdrive =>
      split at hroot
      · next hhost =>
        rcases path with _ | ⟨a, _ | ⟨b, _ | ⟨c, path⟩⟩⟩
        · cases hhost
        · cases hhost
        · cases hhost
        · have hseps : isSeparator true a = true ∧ isSeparator true b = true ∧ isSeparator true c = false := by
            simpa [isNetworkDrive, and_assoc] using hhost
          obtain ⟨ha, hb, hc⟩ := hseps
          have hcolon : b ≠ byte ':' := by
            rintro rfl
            exact absurd hb (by decide)
          have hnot : ∀ s : Str, isLocalDrive (a :: b :: s) = false := by
            intro s
            simp [isLocalDrive, hcolon]
          have hword : ∀ d ∈ path.takeWhile fun d => !isSeparator true d, (!isSeparator true d) = true :=
            List.all_eq_true.mp List.all_takeWhile
          simp only [hnot, hhost, Bool.false_eq_true, if_false, if_true, List.take_succ_cons, List.take_zero,
            List.drop_succ_cons, List.drop_zero, List.takeWhile_cons, hc, Bool.not_false, List.cons_append,
            List.nil_append, List.append_assoc]
          rw [if_pos (by simp [isNetworkDrive, ha, hb, hc]), List.takeWhile_append_of_pos hword, List.takeWhile_cons,
            hsep]
          simp
      · exact absurd rfl hroot

/-- What is written for a relative path has no root, unless it begins with a drive. -/
theorem absoluteRoot_join (hsep : isSeparator windowsPath sep = true) {cs : List Str}
    (hcs : ∀ t ∈ cs, t ≠ [] ∧ ∀ c ∈ t, isSeparator windowsPath c = false)
    (hdrive : windowsPath = true → ∀ t, cs.head? = some t → isLocalDrive t = false) :
    absoluteRoot windowsPath (join sep cs) = [] := by
  have hhead : ∀ c, (join sep cs).head? = some c → isSeparator windowsPath c = false := fun _ => head?_join hcs
  rcases windowsPath with _ | _
  · have hslash : (join sep cs).head? ≠ some slash := by
      intro h
      have hno := hhead _ h
      rw [isSeparator_slash] at hno
      cases hno
    simp [absoluteRoot, hslash]
  · have hlocal : isLocalDrive (join sep cs) = false := by
      rcases cs with _ | ⟨t, _ | ⟨u, cs⟩⟩
      · rfl
      · exact hdrive rfl t rfl
      · exact isLocalDrive_head (hdrive rfl t rfl) (hcs t List.mem_cons_self).1 (by simpa using hsep)
    have hnetwork : isNetworkDrive (join sep cs) = false := by
      rcases hjoin : join sep cs with _ | ⟨a, _ | ⟨b, _ | ⟨c, rest⟩⟩⟩
      · rfl
      · rfl
      · rfl
      · simp [isNetworkDrive, hhead a (by rw [hjoin]; rfl)]
    simp [absoluteRoot, hlocal, hnetwork]

/-! ### The main result -/

/-- What is written has the same root, the same climb and these components. -/
structure Written (windowsPath : Bool) (sep : UInt8) (path : Str) : Prop where
  root : absoluteRoot windowsPath (cleanPath path windowsPath sep) = absoluteRoot windowsPath path
  climb : written (absoluteRoot windowsPath path) (climbed windowsPath (cleanPath path windowsPath sep)) =
    written (absoluteRoot windowsPath path) (climbed windowsPath path)
  below : below windowsPath (cleanPath path windowsPath sep) = [str "."] ∨
    below windowsPath (cleanPath path windowsPath sep) = written (absoluteRoot windowsPath path) (climbed windowsPath path)

theorem written_relative (hsep : isSeparator windowsPath sep = true) (hroot : absoluteRoot windowsPath path = [])
    (hdrive : Driveless windowsPath path) : Written windowsPath sep path := by
  have hwords := words_written windowsPath [] path
  have hclimbed : climbed windowsPath path = climb ((components windowsPath path).map component) := by
    rw [climbed, hroot]
    rfl
  have hclean := cleanPath_eq windowsPath sep path
  rw [hroot, assemble] at hclean
  by_cases hnone : written [] (climbed windowsPath path) = []
  · rw [if_pos ⟨hnone, rfl⟩] at hclean
    have hdot : absoluteRoot windowsPath (str ".") = [] ∧ climbed windowsPath (str ".") = {} ∧
        FileSystem.below windowsPath (str ".") = [str "."] := by
      cases windowsPath <;> decide
    refine ⟨?_, ?_, .inl ?_⟩
    · rw [hclean, hdot.1, hroot]
    · rw [hclean, hdot.2.1, hroot, hnone]
      rfl
    · rw [hclean, hdot.2.2]
  · rw [if_neg (fun h => hnone h.1), if_neg (fun h => h.2 rfl), List.nil_append, List.nil_append] at hclean
    have hagain : absoluteRoot windowsPath (join sep (written [] (climbed windowsPath path))) = [] :=
      absoluteRoot_join hsep hwords fun hwindows t ht => hdrive hwindows hroot t (hclimbed ▸ ht)
    have hcomponents := components_join hsep hwords
    refine ⟨?_, ?_, .inr ?_⟩
    · rw [hclean, hagain, hroot]
    · rw [hclean, hroot, climbed, hagain]
      simp only [List.length_nil, List.drop_zero, hcomponents]
      rw [map_written [] (climbed_isName windowsPath path), if_pos rfl, climb_up_into, List.reverse_reverse]
    · rw [hclean, hroot, FileSystem.below, hagain]
      simp only [List.length_nil, List.drop_zero, ne_eq, not_true_eq_false, false_and, and_false, if_false, hcomponents]

theorem written_absolute (hsep : isSeparator windowsPath sep = true) (hroot : absoluteRoot windowsPath path ≠ []) :
    Written windowsPath sep path := by
  have hclean := cleanPath_eq windowsPath sep path
  rw [assemble, if_neg (fun h => hroot h.2)] at hclean
  have hwords := words_written windowsPath (absoluteRoot windowsPath path) path
  have hagain := absoluteRoot_append hsep hroot
    (join sep (written (absoluteRoot windowsPath path) (climbed windowsPath path)))
  rw [← hclean] at hagain
  have hcomponents := components_join hsep hwords
  have hrest : (cleanPath path windowsPath sep).drop (absoluteRoot windowsPath path).length =
      (if windowsPath = true ∧ absoluteRoot windowsPath path ≠ [] then [sep] else []) ++
        join sep (written (absoluteRoot windowsPath path) (climbed windowsPath path)) := by
    rw [hclean, List.append_assoc, List.drop_left]
  have hnames := climbed_isName windowsPath path
  have hmoves := map_written (absoluteRoot windowsPath path) hnames
  rw [if_neg hroot, List.replicate_zero, List.nil_append] at hmoves
  have hagainClimbed : climbed windowsPath (cleanPath path windowsPath sep) =
      ⟨0, (climbed windowsPath path).names⟩ := by
    rw [climbed, hagain, hrest]
    rcases windowsPath with _ | _
    · rw [if_neg (by simp), List.nil_append, hcomponents, hmoves, climb_into, List.reverse_reverse]
    · rw [if_pos ⟨rfl, hroot⟩, List.singleton_append, components_cons_separator hsep, List.map_cons, hcomponents, hmoves]
      exact (climb_into _).trans (by rw [List.reverse_reverse])
  refine ⟨hagain, ?_, .inr ?_⟩
  · rw [hagainClimbed, written, written, if_neg hroot, if_neg hroot]
  · rw [FileSystem.below, hagain, hrest]
    rcases windowsPath with _ | _
    · simp only [Bool.false_eq_true, false_and, if_false, List.nil_append, hcomponents]
    · simp only [true_and, ne_eq, hroot, not_false_iff, if_true, List.singleton_append, List.head?_cons, Option.any_some,
        hsep, List.tail_cons, hcomponents]

theorem Written.stable (h : Written windowsPath sep path) : Stable windowsPath sep path where
  idempotent := by
    rw [cleanPath_eq windowsPath sep (cleanPath path windowsPath sep), h.root, h.climb, ← cleanPath_eq]
  absolute := by rw [h.root]
  located cwd := by
    rw [located_eq, located_eq, h.root]
    by_cases hroot : absoluteRoot windowsPath path = []
    · have hclimb := h.climb
      rw [hroot] at hclimb
      rw [if_pos hroot, if_pos hroot, ← walk_written (climbed_isName windowsPath path), ← hclimb,
        walk_written (climbed_isName windowsPath _)]
    · have hclimb := h.climb
      simp only [written, if_neg hroot, List.replicate_zero, List.nil_append] at hclimb
      rw [if_neg hroot, if_neg hroot, List.reverse_injective hclimb]

theorem normal_written (windowsPath : Bool) (root path : Str) :
    Normal root (written root (climbed windowsPath path)) := by
  refine ⟨_, _, rfl, fun name hname => ?_, fun hroot => if_neg hroot⟩
  obtain ⟨hne, hdot, hup, -⟩ := climbed_isName windowsPath path name (List.mem_reverse.mp hname)
  exact ⟨hne, hdot, hup⟩

end AwsMock.Ftp.FileSystem
