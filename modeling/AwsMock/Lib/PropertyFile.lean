import Mathlib.Data.List.DropRight
import Mathlib.Algebra.BigOperators.Group.List.Basic
import Mathlib.Algebra.GroupWithZero.Nat
import Mathlib.Order.Lattice
import AwsMock.Lib.Bytes
import AwsMock.Lib.OrderedMap

/-!
# Property files

The Java style property file format: a line for each property, its name up to the first `=` or `:`, its value behind
it, with escape sequences, continued lines and comments. The reader is the run of a scanner over the bytes. What a
content can hold is counted: every property has a line of its own (`parse_lines`), and a backslash or a line end in a
value was written with a backslash (`parse_escapes`).
-/

namespace Lib.PropertyFile

/-- The bytes that end a value. -/
def isLineEnd (c : UInt8) : Bool := c = byte '\n' ∨ c = byte '\r' ∨ c = 0

def isBackslash (c : UInt8) : Bool := c = 92

def lineEnds (s : Str) : Nat := s.countP isLineEnd

def backslashes (s : Str) : Nat := s.countP isBackslash

/-- Where the scanner is: between two lines, in a comment, in a name, in a value, behind a backslash in a value, or
    behind a backslash and a carriage return. -/
inductive Mode where
  | start
  | comment
  | name (key : Str)
  | value (key value : Str)
  | escape (key value : Str)
  | carriage (key value : Str)
  deriving DecidableEq

/-- The properties read so far and the property being read. -/
structure Scanner where
  mode : Mode
  properties : OrderedMap Str Str

variable (space : UInt8 → Bool)

/-- Without the white space at both ends. -/
def trim (s : Str) : Str := (s.dropWhile space).rdropWhile space

namespace Scanner

/-- A property is complete. -/
def enter (s : Scanner) (key value : Str) : Scanner :=
  ⟨.start, s.properties.insert (trim space key) (trim space value)⟩

def readName (s : Scanner) (key : Str) (c : UInt8) : Scanner :=
  if c = byte '=' ∨ c = byte ':' then { s with mode := .value key [] }
  else if c = byte '\n' ∨ c = byte '\r' then s.enter space key []
  else { s with mode := .name (key ++ [c]) }

def readValue (s : Scanner) (key value : Str) (c : UInt8) : Scanner :=
  if isBackslash c then { s with mode := .escape key value }
  else if isLineEnd c then s.enter space key value
  else { s with mode := .value key (value ++ [c]) }

/-- The byte that an escape sequence stands for. -/
def unescape (c : UInt8) : UInt8 :=
  if c = byte 't' then 9 else if c = byte 'r' then 13 else if c = byte 'n' then 10
  else if c = byte 'f' then 12 else c

/-- A line that ends behind a backslash is continued. -/
def readEscape (s : Scanner) (key value : Str) (c : UInt8) : Scanner :=
  if c = byte '\n' then { s with mode := .value key value }
  else if c = byte '\r' then { s with mode := .carriage key value }
  else if c = 0 then s.enter space key value
  else { s with mode := .value key (value ++ [unescape c]) }

def read (s : Scanner) (c : UInt8) : Scanner :=
  match s.mode with
  | .start =>
    if space c then s
    else if c = byte '#' ∨ c = byte '!' then { s with mode := .comment }
    else s.readName space [] c
  | .comment => if c = byte '\n' ∨ c = byte '\r' then { s with mode := .start } else s
  | .name key => s.readName space key c
  | .value key value => s.readValue space key value c
  | .escape key value => s.readEscape space key value c
  | .carriage key value =>
    if c = byte '\n' then { s with mode := .value key value } else s.readValue space key value c

/-- The end of the file. -/
def finish (s : Scanner) : Scanner :=
  match s.mode with
  | .start | .comment => s
  | .name key => s.enter space key []
  | .value key value | .escape key value | .carriage key value => s.enter space key value

end Scanner

/-- The properties that a content assigns. -/
def parse (content : Str) : OrderedMap Str Str :=
  ((content.foldl (Scanner.read space) ⟨.start, ∅⟩).finish space).properties

/-! ### Counting -/

theorem count_trim_le (p : UInt8 → Bool) (s : Str) : (trim space s).countP p ≤ s.countP p :=
  ((List.rdropWhile_prefix space _).sublist.trans (List.dropWhile_suffix space).sublist).countP_le

theorem sum_insertEntry_le {κ α : Type} [LinearOrder κ] (f : κ × α → Nat) (k : κ) (v : α) : ∀ es : List (κ × α),
    ((OrderedMap.insertEntry k v es).map f).sum ≤ f (k, v) + (es.map f).sum
  | [] => by simp [OrderedMap.insertEntry]
  | e :: es => by
    have ih := sum_insertEntry_le f k v es
    unfold OrderedMap.insertEntry
    split
    · simp
    · split
      · simp only [List.map_cons, List.sum_cons]
        omega
      · simp only [List.map_cons, List.sum_cons]
        omega

/-- A scanner's potential: what its properties weigh and what the property being read does. -/
def potential (weight : Str × Str → Nat) (pending : Mode → Nat) (s : Scanner) : Nat :=
  (s.properties.entries.map weight).sum + pending s.mode

theorem potential_enter_le (weight : Str × Str → Nat) (pending : Mode → Nat) (s : Scanner) (key value : Str) :
    potential weight pending (s.enter space key value) ≤
      weight (trim space key, trim space value) + (s.properties.entries.map weight).sum + pending .start := by
  have := sum_insertEntry_le weight (trim space key) (trim space value) s.properties.entries
  simp only [potential, Scanner.enter, OrderedMap.insert]
  omega

/-- What each byte can add bounds what a whole content does. -/
theorem potential_foldl_le {weight : Str × Str → Nat} {pending : Mode → Nat} {p : UInt8 → Bool}
    (hstep : ∀ s c, potential weight pending (s.read space c) ≤ potential weight pending s + if p c then 1 else 0) :
    ∀ (content : Str) (s : Scanner),
      potential weight pending (content.foldl (Scanner.read space) s) ≤ potential weight pending s + content.countP p
  | [], s => by simp
  | c :: cs, s => by
    have hrest := potential_foldl_le hstep cs (s.read space c)
    have hfirst := hstep s c
    rw [List.foldl_cons, List.countP_cons]
    omega

/-! ### A line for every property -/

def lineWeight (e : Str × Str) : Nat := 1 + lineEnds e.1

def pendingLines : Mode → Nat
  | .start | .comment => 0
  | .name key | .value key _ | .escape key _ | .carriage key _ => lineEnds key

theorem lines_enter (s : Scanner) (key value : Str) : potential lineWeight pendingLines (s.enter space key value) ≤
    (s.properties.entries.map lineWeight).sum + lineEnds key + 1 := by
  have henter := potential_enter_le space lineWeight pendingLines s key value
  have htrim : lineEnds (trim space key) ≤ lineEnds key := count_trim_le space isLineEnd key
  simp only [lineWeight, pendingLines] at henter ⊢
  omega

theorem lines_readName (s : Scanner) (key : Str) (c : UInt8) :
    potential lineWeight pendingLines (s.readName space key c) ≤
      (s.properties.entries.map lineWeight).sum + lineEnds key + if isLineEnd c then 1 else 0 := by
  unfold Scanner.readName
  split
  · simp [potential, pendingLines]
  · split
    · next hend =>
      have : isLineEnd c := by
        rcases hend with rfl | rfl <;> rfl
      simpa [this] using lines_enter space s key []
    · simp only [potential, pendingLines, lineEnds, List.countP_append, List.countP_cons, List.countP_nil]
      omega

theorem lines_readValue (s : Scanner) (key value : Str) (c : UInt8) :
    potential lineWeight pendingLines (s.readValue space key value c) ≤
      (s.properties.entries.map lineWeight).sum + lineEnds key + if isLineEnd c then 1 else 0 := by
  unfold Scanner.readValue
  split
  · simp [potential, pendingLines]
  · split
    · next hend => simpa [hend] using lines_enter space s key value
    · simp [potential, pendingLines]

theorem lines_readEscape (s : Scanner) (key value : Str) (c : UInt8) :
    potential lineWeight pendingLines (s.readEscape space key value c) ≤
      (s.properties.entries.map lineWeight).sum + lineEnds key + if isLineEnd c then 1 else 0 := by
  unfold Scanner.readEscape
  split
  · simp [potential, pendingLines]
  · split
    · simp [potential, pendingLines]
    · split
      · next hend =>
        subst hend
        exact lines_enter space s key value
      · simp [potential, pendingLines]

theorem lines_read (s : Scanner) (c : UInt8) : potential lineWeight pendingLines (s.read space c) ≤
    potential lineWeight pendingLines s + if isLineEnd c then 1 else 0 := by
  obtain ⟨mode, properties⟩ := s
  cases mode with
  | start =>
    simp only [Scanner.read]
    split
    · omega
    · split
      · simp [potential, pendingLines]
      · simpa [potential, pendingLines, lineEnds] using lines_readName space ⟨.start, properties⟩ [] c
  | comment =>
    simp only [Scanner.read]
    split
    · simp [potential, pendingLines]
    · omega
  | name key => exact lines_readName space ⟨.name key, properties⟩ key c
  | value key value => exact lines_readValue space ⟨.value key value, properties⟩ key value c
  | escape key value => exact lines_readEscape space ⟨.escape key value, properties⟩ key value c
  | carriage key value =>
    simp only [Scanner.read]
    split
    · simp [potential, pendingLines]
    · exact lines_readValue space ⟨.carriage key value, properties⟩ key value c

/-- A content with `n` line ends holds at most `n + 1` properties; a line end in a name counts against it. -/
theorem parse_lines (content : Str) :
    ((parse space content).entries.map lineWeight).sum ≤ 1 + lineEnds content := by
  have hrun := potential_foldl_le space (lines_read space) content ⟨.start, ∅⟩
  have hfinish : ∀ s : Scanner,
      ((s.finish space).properties.entries.map lineWeight).sum ≤ potential lineWeight pendingLines s + 1 := by
    rintro ⟨mode, properties⟩
    have henter : ∀ key value,
        (((Scanner.mk mode properties).enter space key value).properties.entries.map lineWeight).sum ≤
          (properties.entries.map lineWeight).sum + lineEnds key + 1 := fun key value =>
      (Nat.le_add_right _ _).trans (lines_enter space ⟨mode, properties⟩ key value)
    cases mode with
    | start | comment => simp only [Scanner.finish, potential]; omega
    | name key => exact henter key []
    | value key value | escape key value | carriage key value => exact henter key value
  have hend := hfinish (content.foldl (Scanner.read space) ⟨.start, ∅⟩)
  have hstart : potential lineWeight pendingLines ⟨.start, ∅⟩ = 0 := rfl
  simp only [parse, lineEnds]
  omega

/-! ### Escape sequences -/

def escapeWeight (e : Str × Str) : Nat := backslashes e.1 + 2 * backslashes e.2 + lineEnds e.2

def pendingEscapes : Mode → Nat
  | .start | .comment => 0
  | .name key => backslashes key
  | .value key value | .carriage key value => escapeWeight (key, value)
  | .escape key value => escapeWeight (key, value) + 1

theorem escapes_enter (s : Scanner) (key value : Str) :
    potential escapeWeight pendingEscapes (s.enter space key value) ≤
      (s.properties.entries.map escapeWeight).sum + escapeWeight (key, value) := by
  have henter := potential_enter_le space escapeWeight pendingEscapes s key value
  have hkey : backslashes (trim space key) ≤ backslashes key := count_trim_le space isBackslash key
  have hvalue : backslashes (trim space value) ≤ backslashes value := count_trim_le space isBackslash value
  have hends : lineEnds (trim space value) ≤ lineEnds value := count_trim_le space isLineEnd value
  simp only [escapeWeight, pendingEscapes] at henter ⊢
  omega

theorem escapes_readName (s : Scanner) (key : Str) (c : UInt8) :
    potential escapeWeight pendingEscapes (s.readName space key c) ≤
      (s.properties.entries.map escapeWeight).sum + backslashes key + if isBackslash c then 1 else 0 := by
  unfold Scanner.readName
  split
  · simp [potential, pendingEscapes, escapeWeight, backslashes, lineEnds]
  · split
    · have := escapes_enter space s key []
      simp only [escapeWeight, backslashes, lineEnds, List.countP_nil] at this ⊢
      omega
    · simp only [potential, pendingEscapes, backslashes, List.countP_append, List.countP_cons, List.countP_nil]
      omega

theorem escapes_readValue (s : Scanner) (key value : Str) (c : UInt8) :
    potential escapeWeight pendingEscapes (s.readValue space key value c) ≤
      (s.properties.entries.map escapeWeight).sum + escapeWeight (key, value) + if isBackslash c then 1 else 0 := by
  unfold Scanner.readValue
  split
  · simp only [potential, pendingEscapes]
    omega
  · split
    · have := escapes_enter space s key value
      omega
    · next hb he =>
      simp only [potential, pendingEscapes, escapeWeight, backslashes, lineEnds, List.countP_append, List.countP_cons,
        List.countP_nil, hb, he]
      simp

/-- Only an escaped backslash is one, and a line end comes from `r` or `n`. -/
theorem unescape_weight {c : UInt8} (hn : c ≠ byte '\n') (hr : c ≠ byte '\r') (h0 : c ≠ 0) :
    2 * (if isBackslash (Scanner.unescape c) then 1 else 0) + (if isLineEnd (Scanner.unescape c) then 1 else 0) ≤
      1 + if isBackslash c then 1 else 0 := by
  unfold Scanner.unescape
  split
  · simp [isBackslash, isLineEnd, byte]
  · split
    · simp [isBackslash, isLineEnd, byte]
    · split
      · simp [isBackslash, isLineEnd, byte]
      · split
        · simp [isBackslash, isLineEnd, byte]
        · have hend : isLineEnd c = false := by simp [isLineEnd, hn, hr, h0]
          simp only [hend]
          split <;> simp

theorem escapes_readEscape (s : Scanner) (key value : Str) (c : UInt8) :
    potential escapeWeight pendingEscapes (s.readEscape space key value c) ≤
      (s.properties.entries.map escapeWeight).sum + (escapeWeight (key, value) + 1) +
        if isBackslash c then 1 else 0 := by
  unfold Scanner.readEscape
  split
  · simp only [potential, pendingEscapes]
    omega
  · split
    · simp only [potential, pendingEscapes]
      omega
    · split
      · have := escapes_enter space s key value
        omega
      · next hn hr h0 =>
        have := unescape_weight hn hr h0
        simp only [potential, pendingEscapes, escapeWeight, backslashes, lineEnds, List.countP_append, List.countP_cons,
          List.countP_nil]
        omega

theorem escapes_read (s : Scanner) (c : UInt8) : potential escapeWeight pendingEscapes (s.read space c) ≤
    potential escapeWeight pendingEscapes s + if isBackslash c then 1 else 0 := by
  obtain ⟨mode, properties⟩ := s
  cases mode with
  | start =>
    simp only [Scanner.read]
    split
    · omega
    · split
      · simp [potential, pendingEscapes]
      · simpa [potential, pendingEscapes, backslashes] using escapes_readName space ⟨.start, properties⟩ [] c
  | comment =>
    simp only [Scanner.read]
    split
    · simp [potential, pendingEscapes]
    · omega
  | name key => exact escapes_readName space ⟨.name key, properties⟩ key c
  | value key value => exact escapes_readValue space ⟨.value key value, properties⟩ key value c
  | escape key value => exact escapes_readEscape space ⟨.escape key value, properties⟩ key value c
  | carriage key value =>
    simp only [Scanner.read]
    split
    · simp [potential, pendingEscapes]
    · exact escapes_readValue space ⟨.carriage key value, properties⟩ key value c

/-- In a value a backslash was written as two, and a line end with one. -/
theorem parse_escapes (content : Str) :
    ((parse space content).entries.map escapeWeight).sum ≤ backslashes content := by
  have hrun := potential_foldl_le space (escapes_read space) content ⟨.start, ∅⟩
  have hfinish : ∀ s : Scanner,
      ((s.finish space).properties.entries.map escapeWeight).sum ≤ potential escapeWeight pendingEscapes s := by
    rintro ⟨mode, properties⟩
    have henter : ∀ key value,
        (((Scanner.mk mode properties).enter space key value).properties.entries.map escapeWeight).sum ≤
          (properties.entries.map escapeWeight).sum + escapeWeight (key, value) := fun key value =>
      (Nat.le_add_right _ _).trans (escapes_enter space ⟨mode, properties⟩ key value)
    cases mode with
    | start | comment => simp only [Scanner.finish, potential]; omega
    | name key =>
      simpa [Scanner.finish, potential, pendingEscapes, escapeWeight, backslashes, lineEnds] using henter key []
    | value key value | carriage key value => exact henter key value
    | escape key value => exact (henter key value).trans (Nat.le_succ _)
  have hend := hfinish (content.foldl (Scanner.read space) ⟨.start, ∅⟩)
  have hstart : potential escapeWeight pendingEscapes ⟨.start, ∅⟩ = 0 := rfl
  simp only [parse, backslashes]
  omega

/-! ### Properties written without line ends -/

/-- A file in which the properties follow each other on one line. -/
def unbroken (m : OrderedMap Str Str) : Str := m.entries.flatMap fun e => e.1 ++ byte '=' :: e.2

theorem countP_unbroken {p : UInt8 → Bool} (hp : p (byte '=') = false) (m : OrderedMap Str Str) :
    (unbroken m).countP p = (m.entries.map fun e => e.1.countP p + e.2.countP p).sum := by
  have hentries : ∀ es : List (Str × Str), (es.flatMap fun e => e.1 ++ byte '=' :: e.2).countP p =
      (es.map fun e => e.1.countP p + e.2.countP p).sum := by
    intro es
    induction es with
    | nil => rfl
    | cons e es ih =>
      simp only [List.flatMap_cons, List.countP_append, List.countP_cons, hp, ih, List.map_cons, List.sum_cons,
        Bool.false_eq_true, if_false]
      omega
  exact hentries m.entries

/-- A reader for which a property has its line and its escape sequences reads at most one property back from such a
    file: a second one needs a line end, a value with a line end needs a backslash more than there is. -/
theorem size_le_one_of_read_unbroken {read : Str → OrderedMap Str Str}
    (hlines : ∀ content, ((read content).entries.map lineWeight).sum ≤ 1 + lineEnds content)
    (hescapes : ∀ content, ((read content).entries.map escapeWeight).sum ≤ backslashes content)
    {m : OrderedMap Str Str} (h : read (unbroken m) = m) : m.entries.length ≤ 1 := by
  have hl := hlines (unbroken m)
  have he := hescapes (unbroken m)
  rw [h, lineEnds, countP_unbroken (by decide)] at hl
  rw [h, backslashes, countP_unbroken (by decide)] at he
  have hsums : ∀ es : List (Str × Str),
      (es.map lineWeight).sum = es.length + (es.map fun e => lineEnds e.1).sum ∧
      (es.map escapeWeight).sum = (es.map fun e => backslashes e.1).sum +
        2 * (es.map fun e => backslashes e.2).sum + (es.map fun e => lineEnds e.2).sum ∧
      (es.map fun e => e.1.countP isLineEnd + e.2.countP isLineEnd).sum =
        (es.map fun e => lineEnds e.1).sum + (es.map fun e => lineEnds e.2).sum ∧
      (es.map fun e => e.1.countP isBackslash + e.2.countP isBackslash).sum =
        (es.map fun e => backslashes e.1).sum + (es.map fun e => backslashes e.2).sum := by
    intro es
    induction es with
    | nil => simp
    | cons e es ih =>
      simp only [List.map_cons, List.sum_cons, List.length_cons, lineWeight, escapeWeight, lineEnds, backslashes]
        at ih ⊢
      omega
  obtain ⟨h1, h2, h3, h4⟩ := hsums m.entries
  omega

example : parse (· = 32) (unbroken (.ofList [([97], [49]), ([98], [50])])) = .ofList [([97], str "1b=2")] := by
  decide

end Lib.PropertyFile
