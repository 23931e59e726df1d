import AwsMock.Lib.Bytes

/-!
# XML documents

The tree a DOM parser returns, and lists of elements that are written with whitespace and comments between
them.
-/

namespace Lib

inductive XmlNode where
  | element (name : Str) (children : List XmlNode)
  | text (data : Str)
  | comment (data : Str)

namespace XmlNode

def nodeName : XmlNode → Str
  | element name _ => name
  | text _ => str "#text"
  | comment _ => str "#comment"

def childNodes : XmlNode → List XmlNode
  | element _ children => children
  | _ => []

def hasChildNodes (node : XmlNode) : Bool := !node.childNodes.isEmpty

def firstChild (node : XmlNode) : Option XmlNode := node.childNodes.head?

def lastChild (node : XmlNode) : Option XmlNode := node.childNodes.getLast?

mutual

/-- The text below a node, to which a comment adds nothing. -/
def innerText : XmlNode → Str
  | element _ children => innerTexts children
  | text data => data
  | comment _ => []

def innerTexts : List XmlNode → Str
  | [] => []
  | node :: nodes => innerText node ++ innerTexts nodes

end

theorem innerTexts_append : ∀ (nodes nodes' : List XmlNode),
    innerTexts (nodes ++ nodes') = innerTexts nodes ++ innerTexts nodes'
  | [], _ => rfl
  | node :: nodes, nodes' => by
    rw [List.cons_append, innerTexts, innerTexts, innerTexts_append nodes nodes', List.append_assoc]

theorem innerTexts_eq_nil : ∀ {nodes : List XmlNode},
    innerTexts nodes = [] ↔ ∀ node ∈ nodes, innerText node = []
  | [] => by simp [innerTexts]
  | node :: nodes => by
    rw [innerTexts, List.append_eq_nil_iff, innerTexts_eq_nil, List.forall_mem_cons]

/-- An element around a text. An empty text is no node. -/
def leaf (name data : Str) : XmlNode := element name (if data = [] then [] else [text data])

@[simp] theorem nodeName_leaf (name data : Str) : (leaf name data).nodeName = name := rfl

@[simp] theorem innerText_leaf (name data : Str) : (leaf name data).innerText = data := by
  rw [leaf, innerText]
  split
  · next h => rw [h, innerTexts]
  · rw [innerTexts, innerText, innerTexts, List.append_nil]

theorem childNodes_leaf {name data : Str} (h : data ≠ []) : (leaf name data).childNodes = [text data] := if_neg h

end XmlNode

/-! ### Whitespace and comments -/

/-- What may stand between two elements: whitespace or a comment. -/
inductive Filler where
  | space (blanks : {s : Str // s ≠ [] ∧ ∀ c ∈ s, c ∈ str " \t\n\r"})
  | comment (data : Str)

namespace Filler

def node : Filler → XmlNode
  | space blanks => .text blanks
  | comment data => .comment data

@[simp] theorem childNodes_node (filler : Filler) : filler.node.childNodes = [] := by
  cases filler <;> rfl

/-- No element has the name of a filler's node. -/
theorem nodeName_node {filler : Filler} {name : Str} (h : byte '#' ∉ name) : filler.node.nodeName ≠ name := by
  rintro rfl
  cases filler with
  | space blanks => exact h (show byte '#' ∈ str "#text" by decide)
  | comment data => exact h (show byte '#' ∈ str "#comment" by decide)

/-- The text of a filler is made of blanks. -/
theorem mem_innerText {filler : Filler} {c : UInt8} (h : c ∈ filler.node.innerText) : c ∈ str " \t\n\r" := by
  cases filler with
  | space blanks => exact blanks.2.2 c h
  | comment data => cases h

end Filler

/-- A place in a list of elements: one of them, or a filler. -/
inductive Spaced (α : Type) where
  | filler (filler : Filler)
  | element (a : α)

namespace Spaced

variable {α β : Type}

def element? : Spaced α → Option α
  | filler _ => none
  | element a => some a

/-- The elements of the list, in its order. -/
def elements (items : List (Spaced α)) : List α := items.filterMap element?

def node (render : α → XmlNode) : Spaced α → XmlNode
  | filler f => f.node
  | element a => render a

def nodes (render : α → XmlNode) (items : List (Spaced α)) : List XmlNode := items.map (node render)

@[simp] theorem elements_nil : elements ([] : List (Spaced α)) = [] := rfl

@[simp] theorem elements_filler (f : Filler) (items : List (Spaced α)) :
    elements (filler f :: items) = elements items :=
  rfl

@[simp] theorem elements_element (a : α) (items : List (Spaced α)) :
    elements (element a :: items) = a :: elements items :=
  rfl

/-- A loop that passes over fillers runs over the elements. -/
theorem foldlM_nodes {render : α → XmlNode} {step : β → XmlNode → Option β}
    (hfiller : ∀ b (f : Filler), step b f.node = some b) : ∀ (items : List (Spaced α)) (b : β),
    (nodes render items).foldlM step b = (elements items).foldlM (fun b a => step b (render a)) b
  | [], _ => rfl
  | filler f :: items, b => by
    rw [nodes, List.map_cons, List.foldlM_cons, node, hfiller, elements_filler]
    exact foldlM_nodes hfiller items b
  | element a :: items, b => by
    rw [nodes, List.map_cons, List.foldlM_cons, node, elements_element, List.foldlM_cons]
    exact congrArg _ (funext fun b' => foldlM_nodes hfiller items b')

theorem innerTexts_nodes_eq_nil {render : α → XmlNode} {items : List (Spaced α)} :
    XmlNode.innerTexts (nodes render items) = [] ↔ ∀ item ∈ items, (item.node render).innerText = [] := by
  rw [nodes, XmlNode.innerTexts_eq_nil, List.forall_mem_map]

theorem length_elements_le (items : List (Spaced α)) : (elements items).length ≤ items.length :=
  List.length_filterMap_le element? items

end Spaced

end Lib
