import AwsMock.Dto.XmlRequests

/-!
# What is read of XML requests

The loops of `FromXml` run over the nodes of a document from the inside out: a rule, a filter, a configuration,
the request.
-/

namespace AwsMock.Dto

open Lib
open Lib.XmlNode (leaf)
open Lib.Spaced (elements)

/-! ### Filter rules -/

/-- How the rules below the first node of `S3Key` are read. -/
def ConfigurationKind.rulesOf : ConfigurationKind → XmlNode → Option (List FilterRule)
  | queue => wholeRule
  | topic => childRules
  | cloudFunction => childRules

theorem fromString_toString (name : NameType) : NameType.fromString name.toString = name := by
  cases name <;> decide

theorem toString_ne_nil (name : NameType) : name.toString ≠ [] := by
  cases name <;> decide

/-- A blank text or an empty one is not a name: it is read as the default. -/
theorem fromString_filler (filler : Filler) : NameType.fromString filler.node.innerText = .keyPrefix := by
  have hne {name : Str} (h : byte 'f' ∈ name) : filler.node.innerText ≠ name := by
    rintro rfl
    exact absurd (Filler.mem_innerText h) (by decide)
  rw [NameType.fromString, if_neg (hne (by decide)), if_neg (hne (by decide))]

theorem fromXmlNode_filler (filler : Filler) : FilterRule.fromXmlNode filler.node = none := by
  rw [FilterRule.fromXmlNode, XmlNode.firstChild, Filler.childNodes_node]
  rfl

theorem fromXmlNode_leaf (name : Str) {data : Str} (h : data ≠ []) :
    FilterRule.fromXmlNode (leaf name data) = some ⟨NameType.fromString data, data⟩ := by
  rw [FilterRule.fromXmlNode, XmlNode.firstChild, XmlNode.lastChild, XmlNode.childNodes_leaf h]
  rfl

theorem fromXmlNode_leaf_nil (name : Str) : FilterRule.fromXmlNode (leaf name []) = none := rfl

namespace FilterRuleElement

variable {rule : FilterRuleElement}

theorem firstChild_node : rule.node.firstChild = some ((rule.before.map Filler.node).head?.getD rule.first) := by
  rw [XmlNode.firstChild, node, XmlNode.childNodes]
  rcases rule.before with _ | ⟨filler, before⟩ <;> rfl

theorem lastChild_node : rule.node.lastChild = some ((rule.after.map Filler.node).getLast?.getD rule.second) := by
  rw [XmlNode.lastChild, node, XmlNode.childNodes, List.getLast?_append, List.getLast?_cons, List.getLast?_append,
    List.getLast?_cons]
  simp

theorem nameReadFirst_iff : NameType.fromString ((rule.before.map Filler.node).head?.getD rule.first).innerText =
    rule.name ↔ rule.NameReadFirst := by
  rw [NameReadFirst]
  rcases hbefore : rule.before with _ | ⟨filler, before⟩
  · rw [if_pos rfl, List.map_nil, List.head?_nil, Option.getD_none, first]
    by_cases hfirst : rule.nameFirst
    · simp [hfirst, fromString_toString]
    · simp [hfirst]
  · rw [if_neg nofun, List.map_cons, List.head?_cons, Option.getD_some, fromString_filler]
    exact eq_comm

theorem valueReadLast_iff : ((rule.after.map Filler.node).getLast?.getD rule.second).innerText = rule.value ↔
    rule.ValueReadLast := by
  rw [ValueReadLast, List.getLast?_map]
  rcases rule.after.getLast? with _ | filler
  · rw [Option.map_none, Option.getD_none, second]
    by_cases hfirst : rule.nameFirst
    · simp [hfirst]
    · simp [hfirst]
  · rfl

/-- The whole node is read as its rule. -/
theorem wholeRule_node_iff {rules : List FilterRule} : wholeRule rule.node = some (rule.rule :: rules) ↔
    rule.NameReadFirst ∧ rule.ValueReadLast ∧ rules = [] := by
  rw [← nameReadFirst_iff, ← valueReadLast_iff, wholeRule, FilterRule.fromXmlNode, firstChild_node, lastChild_node,
    FilterRuleElement.rule]
  simp only [Option.bind_eq_bind, Option.bind_some, Option.pure_def, Option.some.injEq, List.cons.injEq,
    FilterRule.mk.injEq, and_assoc, eq_comm (a := [])]

/-- The children that become a rule each are not fillers. -/
theorem eq_nil_of_children {fillers : List Filler} {rest : List XmlNode} {rules : List FilterRule}
    (h : List.Forall₂ (fun child rule => FilterRule.fromXmlNode child = some rule)
      (fillers.map Filler.node ++ rest) rules) :
    fillers = [] := by
  rcases fillers with _ | ⟨filler, fillers⟩
  · rfl
  · obtain ⟨r, -, hr⟩ := forall₂_partner h List.mem_cons_self
    rw [fromXmlNode_filler] at hr
    cases hr

theorem childRules_node (hbefore : rule.before = []) (hbetween : rule.between = []) (hafter : rule.after = []) :
    childRules rule.node = [rule.first, rule.second].mapM FilterRule.fromXmlNode := by
  rw [childRules, node, hbefore, hbetween, hafter]
  rfl

/-- The first child is read as the rule, so the second one is read as its name. -/
theorem childRules_node_iff {rules : List FilterRule} : childRules rule.node = some (rule.rule :: rules) ↔
    rule.ReadTwice ∧ rules = [⟨rule.name, rule.name.toString⟩] := by
  constructor
  · intro h
    have hchildren := mapM_eq_some.mp h
    rw [node, XmlNode.childNodes] at hchildren
    have hbefore : rule.before = [] := eq_nil_of_children hchildren
    rw [hbefore, List.map_nil, List.nil_append] at hchildren
    obtain ⟨hfirst, hchildren⟩ := List.forall₂_cons.mp hchildren
    have hbetween : rule.between = [] := eq_nil_of_children hchildren
    rw [hbetween, List.map_nil, List.nil_append] at hchildren
    obtain ⟨other, rest, hsecond, hrest, rfl⟩ := List.forall₂_cons_left_iff.mp hchildren
    rw [← List.append_nil (rule.after.map Filler.node)] at hrest
    have hafter : rule.after = [] := eq_nil_of_children hrest
    rw [hafter, List.map_nil, List.append_nil, List.forall₂_nil_left_iff] at hrest
    subst hrest
    have hvalue : rule.value ≠ [] := by
      intro hvalue
      by_cases hnameFirst : rule.nameFirst
      · rw [second, if_pos hnameFirst, hvalue, fromXmlNode_leaf_nil] at hsecond
        cases hsecond
      · rw [first, if_neg hnameFirst, hvalue, fromXmlNode_leaf_nil] at hfirst
        cases hfirst
    by_cases hnameFirst : rule.nameFirst
    · rw [first, if_pos hnameFirst, fromXmlNode_leaf _ (toString_ne_nil _)] at hfirst
      rw [second, if_pos hnameFirst, fromXmlNode_leaf _ hvalue] at hsecond
      have hname : rule.name.toString = rule.value := congrArg FilterRule.value (Option.some.inj hfirst)
      refine ⟨⟨hbefore, hbetween, hafter, hvalue, by rw [if_pos hnameFirst, hname]⟩, ?_⟩
      rw [← Option.some.inj hsecond, ← hname, fromString_toString]
    · rw [first, if_neg hnameFirst, fromXmlNode_leaf _ hvalue] at hfirst
      rw [second, if_neg hnameFirst, fromXmlNode_leaf _ (toString_ne_nil _)] at hsecond
      have hname : NameType.fromString rule.value = rule.name := congrArg FilterRule.name (Option.some.inj hfirst)
      refine ⟨⟨hbefore, hbetween, hafter, hvalue, by rw [if_neg hnameFirst, hname]⟩, ?_⟩
      rw [← Option.some.inj hsecond, fromString_toString]
  · rintro ⟨⟨hbefore, hbetween, hafter, hvalue, horder⟩, rfl⟩
    rw [childRules_node hbefore hbetween hafter, first, second]
    by_cases hfirst : rule.nameFirst
    · rw [if_pos hfirst] at horder
      simp [hfirst, fromXmlNode_leaf, toString_ne_nil, FilterRuleElement.rule, horder, fromString_toString]
    · rw [if_neg hfirst] at horder
      simp [hfirst, fromXmlNode_leaf, toString_ne_nil, hvalue, FilterRuleElement.rule, horder, fromString_toString]

theorem hasChildNodes_node (rule : FilterRuleElement) : rule.node.hasChildNodes = true := by
  rw [XmlNode.hasChildNodes, node, XmlNode.childNodes]
  rcases rule.before with _ | ⟨filler, before⟩ <;> rfl

theorem rulesOf_node_iff {kind : ConfigurationKind} {rules : List FilterRule} :
    kind.rulesOf rule.node = some (rule.rule :: rules) ↔
      if kind = .queue then rule.NameReadFirst ∧ rule.ValueReadLast ∧ rules = []
      else rule.ReadTwice ∧ rules = [⟨rule.name, rule.name.toString⟩] := by
  cases kind with
  | queue => exact wholeRule_node_iff
  | topic => exact childRules_node_iff
  | cloudFunction => exact childRules_node_iff

end FilterRuleElement

namespace FilterElement

theorem hasChildNodes_filler (filler : Filler) : filler.node.hasChildNodes = false := by
  rw [XmlNode.hasChildNodes, Filler.childNodes_node]
  rfl

theorem filterRules_of_filler {rulesOf : XmlNode → Option (List FilterRule)} {filler : Filler} {child : XmlNode}
    (h : child.firstChild = some filler.node) : filterRulesFromXmlNode rulesOf child = none := by
  rw [filterRulesFromXmlNode, h]
  simp [XmlNode.firstChild]

theorem filterRules_of_s3Key {rulesOf : XmlNode → Option (List FilterRule)} {child : XmlNode}
    {items : List (Spaced FilterRuleElement)} (h : child.firstChild = some (s3KeyNode items)) :
    filterRulesFromXmlNode rulesOf child = (items.head?.map (Spaced.node FilterRuleElement.node)).bind fun node =>
      if node.hasChildNodes then rulesOf node else some [] := by
  rw [filterRulesFromXmlNode, h]
  show (s3KeyNode items).firstChild.bind _ = _
  rw [s3KeyNode, XmlNode.firstChild, XmlNode.childNodes, Spaced.nodes, List.head?_map]

/-- What is read below `S3Key`. -/
theorem rulesReadable_iff {kind : ConfigurationKind} {items : List (Spaced FilterRuleElement)} :
    ((items.head?.map (Spaced.node FilterRuleElement.node)).bind fun node =>
      if node.hasChildNodes then kind.rulesOf node else some []) =
        some ((elements items).map FilterRuleElement.rule) ↔ RulesReadable kind items := by
  rcases items with _ | ⟨filler | rule, items⟩
  · simp [RulesReadable]
  · simp [RulesReadable, Spaced.node, hasChildNodes_filler]
  · rw [List.head?_cons, Option.map_some, Option.bind_some, Spaced.node, if_pos rule.hasChildNodes_node, Spaced.elements_element, List.map_cons, FilterRuleElement.rulesOf_node_iff, RulesReadable, List.map_eq_nil_iff]

theorem filterRules_node_iff {kind : ConfigurationKind} {filter : FilterElement} :
    filterRulesFromXmlNode kind.rulesOf filter.node = some filter.filterRules ↔ filter.Readable kind := by
  obtain ⟨before, s3Key, after⟩ := filter
  rcases before with _ | ⟨filler, before⟩
  · rcases s3Key with _ | items
    · rcases after with _ | ⟨filler, after⟩
      · simp [filterRulesFromXmlNode, node, XmlNode.firstChild, XmlNode.childNodes, filterRules, Readable]
      · have hfirst : (node ⟨[], none, filler :: after⟩).firstChild = some filler.node := rfl
        rw [filterRules_of_filler hfirst]
        simp [Readable]
    · have hfirst : (node ⟨[], some items, after⟩).firstChild = some (s3KeyNode items) := rfl
      rw [filterRules_of_s3Key hfirst]
      exact rulesReadable_iff
  · have hfirst : (node ⟨filler :: before, s3Key, after⟩).firstChild = some filler.node := rfl
    rw [filterRules_of_filler hfirst]
    simp [Readable]

end FilterElement

/-! ### Events -/

theorem toString_eq_of_mem {event : Str} (h : event ∈ eventTypeNames.map Prod.snd) :
    (NotificationEventType.fromString event).toString = event ∧ eventName event = event := by
  revert event
  decide +kernel

theorem fromString_of_not_mem {event : Str} (h : event ∉ eventTypeNames.map Prod.snd) :
    NotificationEventType.fromString event = .objectCreated := by
  have hnone : eventTypeNames.find? (fun it => it.2 = event) = none := by
    refine List.find?_eq_none.mpr fun it hit heq => h ?_
    exact List.mem_map.mpr ⟨it, hit, of_decide_eq_true heq⟩
  rw [NotificationEventType.fromString, hnone]
  rfl

theorem eventReadable_iff {event : Str} :
    (NotificationEventType.fromString event).toString = eventName event ↔ EventReadable event := by
  rw [EventReadable]
  by_cases hmem : event ∈ eventTypeNames.map Prod.snd
  · obtain ⟨hstring, hname⟩ := toString_eq_of_mem hmem
    exact iff_of_true (hstring.trans hname.symm) (.inl hmem)
  · rw [fromString_of_not_mem hmem, or_iff_right hmem]
    exact eq_comm

theorem events_eq_iff {events : List Str} :
    (events.map NotificationEventType.fromString).map NotificationEventType.toString = events.map eventName ↔
      ∀ event ∈ events, EventReadable event := by
  rw [List.map_map, List.map_inj_left]
  exact forall₂_congr fun event _ => eventReadable_iff

/-! ### Configurations -/

namespace ConfigurationElement

variable {kind : ConfigurationKind}

theorem add_filler (configuration : NotificationConfiguration) (filler : Filler) :
    configuration.addFromXmlNode kind.arnName kind.rulesOf filler.node = some configuration := by
  have harn : byte '#' ∉ kind.arnName := by
    cases kind <;> decide
  rw [NotificationConfiguration.addFromXmlNode, if_neg (Filler.nodeName_node (by decide)),
    if_neg (Filler.nodeName_node harn), if_neg (Filler.nodeName_node (by decide)),
    if_neg (Filler.nodeName_node (by decide))]

theorem add_id (configuration : NotificationConfiguration) (data : Str) :
    configuration.addFromXmlNode kind.arnName kind.rulesOf ((id data).node kind) =
      some { configuration with id := data } := by
  rw [node, NotificationConfiguration.addFromXmlNode, XmlNode.nodeName_leaf, if_pos rfl, XmlNode.innerText_leaf]

theorem add_arn (configuration : NotificationConfiguration) (data : Str) :
    configuration.addFromXmlNode kind.arnName kind.rulesOf ((arn data).node kind) =
      some { configuration with arn := data } := by
  have hne : kind.arnName ≠ str "Id" := by
    cases kind <;> decide
  rw [node, NotificationConfiguration.addFromXmlNode, XmlNode.nodeName_leaf, if_neg hne, if_pos rfl,
    XmlNode.innerText_leaf]

theorem add_filter (configuration : NotificationConfiguration) (element : FilterElement) :
    configuration.addFromXmlNode kind.arnName kind.rulesOf ((filter element).node kind) =
      (filterRulesFromXmlNode kind.rulesOf element.node).map fun rules =>
        { configuration with filterRules := configuration.filterRules ++ rules } := by
  have hne : str "Filter" ≠ kind.arnName := by
    cases kind <;> decide
  rw [node, NotificationConfiguration.addFromXmlNode]
  show (if str "Filter" = str "Id" then _ else if str "Filter" = kind.arnName then _ else _) = _
  rw [if_neg (by decide), if_neg hne, Option.map_eq_bind]
  rfl

theorem add_event (configuration : NotificationConfiguration) (data : {s : Str // s ≠ []}) :
    configuration.addFromXmlNode kind.arnName kind.rulesOf ((event data).node kind) =
      some { configuration with events := configuration.events ++ [NotificationEventType.fromString data] } := by
  have hne : str "Event" ≠ kind.arnName := by
    cases kind <;> decide
  rw [node, NotificationConfiguration.addFromXmlNode, XmlNode.nodeName_leaf, if_neg (by decide), if_neg hne,
    if_neg (by decide), if_pos rfl, XmlNode.childNodes_leaf data.2]
  rfl

/-- The last ID and the last ARN stay, the rules and the events are appended. -/
theorem foldlM_add : ∀ (es : List ConfigurationElement) (configuration : NotificationConfiguration),
    es.foldlM (fun c e => c.addFromXmlNode kind.arnName kind.rulesOf (e.node kind)) configuration =
      ((es.filterMap filter?).mapM fun element => filterRulesFromXmlNode kind.rulesOf element.node).map fun rules =>
        { id := (es.filterMap id?).getLast?.getD configuration.id
          arn := (es.filterMap arn?).getLast?.getD configuration.arn
          filterRules := configuration.filterRules ++ rules.flatten
          events := configuration.events ++ (es.filterMap event?).map NotificationEventType.fromString }
  | [], configuration => by simp
  | e :: es, configuration => by
    rw [List.foldlM_cons]
    cases e with
    | id data =>
      rw [add_id, Option.bind_eq_bind, Option.bind_some, foldlM_add es]
      simp [List.filterMap_cons, id?, arn?, filter?, event?, List.getLast?_cons]
    | arn data =>
      rw [add_arn, Option.bind_eq_bind, Option.bind_some, foldlM_add es]
      simp [List.filterMap_cons, id?, arn?, filter?, event?, List.getLast?_cons]
    | filter element =>
      rw [add_filter]
      simp only [List.filterMap_cons, id?, arn?, filter?, event?, List.mapM_cons]
      rcases filterRulesFromXmlNode kind.rulesOf element.node with _ | rules
      · rfl
      · rw [Option.map_some, Option.bind_eq_bind, Option.bind_some, foldlM_add es]
        simp [Option.map_eq_bind, Option.bind_assoc, Function.comp_def]
    | event data =>
      rw [add_event, Option.bind_eq_bind, Option.bind_some, foldlM_add es]
      simp [List.filterMap_cons, id?, arn?, filter?, event?]

end ConfigurationElement

namespace ConfigurationDocument

variable {kind : ConfigurationKind} {document : ConfigurationDocument}

theorem getLast?_eq_head? {α : Type} {l : List α} (h : l.length ≤ 1) : l.getLast? = l.head? := by
  rcases l with _ | ⟨a, _ | ⟨b, l⟩⟩
  · rfl
  · rfl
  · rw [List.length_cons, List.length_cons] at h
    omega

/-- With one filter at most, its rules are the rules of the configuration. -/
theorem mapM_filter? : ((elements document.items).filterMap ConfigurationElement.filter?).mapM
      (fun element => filterRulesFromXmlNode kind.rulesOf element.node) =
    document.filter?.elim (some []) fun element =>
      (filterRulesFromXmlNode kind.rulesOf element.node).map fun rules => [rules] := by
  have hone := document.oneFilter
  rw [filter?]
  generalize (elements document.items).filterMap ConfigurationElement.filter? = filters at hone ⊢
  rcases filters with _ | ⟨element, _ | ⟨other, rest⟩⟩
  · rfl
  · rw [List.mapM_cons, List.mapM_nil]
    simp [Option.map_eq_bind, Function.comp_def]
  · rw [List.length_cons, List.length_cons] at hone
    omega

theorem fromXmlNode_node : NotificationConfiguration.fromXmlNode kind.arnName kind.rulesOf (document.node kind) =
    (document.filter?.elim (some []) fun element => filterRulesFromXmlNode kind.rulesOf element.node).map fun rules =>
      { id := document.description.id
        arn := document.description.arn
        filterRules := rules
        events := document.events.map NotificationEventType.fromString } := by
  rw [NotificationConfiguration.fromXmlNode, node, XmlNode.childNodes,
    Spaced.foldlM_nodes ConfigurationElement.add_filler, ConfigurationElement.foldlM_add, mapM_filter?,
    getLast?_eq_head? document.oneId, getLast?_eq_head? document.oneArn.le]
  rcases document.filter? with _ | element
  · rfl
  · rcases hrules : filterRulesFromXmlNode kind.rulesOf element.node with _ | rules
    · simp [hrules]
    · simp [hrules, description, events]

/-- A configuration is read as it is described if its filter and its events are. -/
theorem description_iff : (NotificationConfiguration.fromXmlNode kind.arnName kind.rulesOf (document.node kind)).map
      NotificationConfiguration.description = some document.description ↔ document.Readable kind := by
  rw [fromXmlNode_node, Readable, ← events_eq_iff, Option.map_map]
  have hrules : (document.filter?.elim (some []) fun element => filterRulesFromXmlNode kind.rulesOf element.node) =
      some document.description.filterRules ↔
        ∀ filter, document.filter? = some filter → filter.Readable kind := by
    rw [description]
    rcases document.filter? with _ | element
    · simp
    · simp [FilterElement.filterRules_node_iff]
  rw [← hrules]
  rcases document.filter?.elim (some []) fun element => filterRulesFromXmlNode kind.rulesOf element.node with _ | rules
  · simp
  · simp [NotificationConfiguration.description, description]

end ConfigurationDocument

/-! ### Requests -/

namespace PutBucketNotificationConfigurationRequest

/-- One more configuration, behind those of its kind. -/
def append (request : PutBucketNotificationConfigurationRequest)
    (entry : ConfigurationKind × NotificationConfiguration) : PutBucketNotificationConfigurationRequest :=
  match entry.1 with
  | .queue => { request with queueConfigurations := request.queueConfigurations ++ [entry.2] }
  | .topic => { request with topicConfigurations := request.topicConfigurations ++ [entry.2] }
  | .cloudFunction => { request with lambdaConfigurations := request.lambdaConfigurations ++ [entry.2] }

theorem configurations_foldl_append (kind : ConfigurationKind) :
    ∀ (entries : List (ConfigurationKind × NotificationConfiguration))
      (request : PutBucketNotificationConfigurationRequest),
    (entries.foldl append request).configurations kind = request.configurations kind ++ under kind entries
  | [], request => (List.append_nil _).symm
  | (k, configuration) :: entries, request => by
    rw [List.foldl_cons, configurations_foldl_append kind entries, under_cons]
    cases k <;> cases kind <;> simp [append, configurations]

/-- How the configuration of an entry is read. -/
def readEntry (entry : ConfigurationKind × ConfigurationDocument) :
    Option (ConfigurationKind × NotificationConfiguration) :=
  (NotificationConfiguration.fromXmlNode entry.1.arnName entry.1.rulesOf (entry.2.node entry.1)).map
    fun configuration => (entry.1, configuration)

variable (request : PutBucketNotificationConfigurationRequest)

theorem add_filler (filler : Filler) : request.addFromXmlNode filler.node = some request := by
  rw [addFromXmlNode, if_neg (Filler.nodeName_node (by decide)), if_neg (Filler.nodeName_node (by decide)),
    if_neg (Filler.nodeName_node (by decide))]

theorem add_configuration (kind : ConfigurationKind) (document : ConfigurationDocument) :
    request.addFromXmlNode (document.node kind) = (readEntry (kind, document)).map request.append := by
  have hname : (document.node kind).nodeName = kind.elementName := rfl
  rw [addFromXmlNode, hname, readEntry, Option.map_map, Option.map_eq_bind]
  cases kind with
  | queue =>
    rw [ConfigurationKind.elementName, if_pos rfl]
    rfl
  | topic =>
    rw [ConfigurationKind.elementName, if_neg (by decide), if_pos rfl]
    rfl
  | cloudFunction =>
    rw [ConfigurationKind.elementName, if_neg (by decide), if_neg (by decide), if_pos rfl]
    rfl

theorem add_eventBridge : request.addFromXmlNode NotificationElement.eventBridge.node = some request := by
  show (if str "EventBridgeConfiguration" = str "QueueConfiguration" then _
    else if str "EventBridgeConfiguration" = str "TopicConfiguration" then _
    else if str "EventBridgeConfiguration" = str "CloudFunctionConfiguration" then _ else _) = _
  rw [if_neg (by decide), if_neg (by decide), if_neg (by decide)]

/-- The configurations are read one by one and appended in their order. -/
theorem foldlM_add : ∀ (es : List NotificationElement) (request : PutBucketNotificationConfigurationRequest),
    es.foldlM (fun r e => r.addFromXmlNode e.node) request =
      ((es.filterMap NotificationElement.configuration?).mapM readEntry).map fun entries => entries.foldl append request
  | [], request => rfl
  | .configuration kind document :: es, request => by
    rw [List.foldlM_cons, NotificationElement.node, add_configuration, List.filterMap_cons,
      NotificationElement.configuration?, List.mapM_cons]
    rcases readEntry (kind, document) with _ | entry
    · rfl
    · rw [Option.map_some, Option.bind_eq_bind, Option.bind_some, foldlM_add es]
      simp [Option.map_eq_bind, Option.bind_assoc, Function.comp_def]
  | .eventBridge :: es, request => by
    rw [List.foldlM_cons, add_eventBridge, Option.bind_eq_bind, Option.bind_some, foldlM_add es]
    rfl

end PutBucketNotificationConfigurationRequest

theorem getRootNode_nodes {name : Str} {children : List XmlNode} {prolog epilog : List Str} (h : byte '#' ∉ name) :
    getRootNode name (prolog.map XmlNode.comment ++ .element name children :: epilog.map XmlNode.comment) =
      some (.element name children) := by
  have hprolog : (prolog.map XmlNode.comment).find? (fun node => node.nodeName = name) = none := by
    refine List.find?_eq_none.mpr fun node hnode heq => ?_
    obtain ⟨data, -, rfl⟩ := List.mem_map.mp hnode
    have hne : (Filler.comment data).node.nodeName ≠ name := Filler.nodeName_node h
    exact hne (of_decide_eq_true heq)
  rw [getRootNode, List.find?_append, hprolog, Option.none_or, List.find?_cons_of_pos (by simp [XmlNode.nodeName])]

section Entries

open PutBucketNotificationConfigurationRequest (readEntry)

variable {entries : List (ConfigurationKind × ConfigurationDocument)}
  {read : List (ConfigurationKind × NotificationConfiguration)}

theorem readable_iff : (∀ entry ∈ entries, entry.2.Readable entry.1) ↔
    (entries.mapM readEntry).map (List.map fun entry => (entry.1, entry.2.description)) =
      some (entries.map fun entry => (entry.1, entry.2.description)) := by
  rw [mapM_map_eq_some]
  refine forall₂_congr fun entry _ => ?_
  rw [← ConfigurationDocument.description_iff, readEntry, Option.map_map]
  rcases NotificationConfiguration.fromXmlNode entry.1.arnName entry.1.rulesOf (entry.2.node entry.1) with _ | c
  · simp
  · simp

/-- The entries that are read have the kinds of the document's. -/
theorem kinds_read (h : entries.mapM readEntry = some read) : read.map Prod.fst = entries.map Prod.fst := by
  rw [← List.forall₂_eq_eq_eq, List.forall₂_map_left_iff, List.forall₂_map_right_iff]
  refine (mapM_eq_some.mp h).flip.imp fun configuration entry hentry => ?_
  obtain ⟨c, -, rfl⟩ := Option.map_eq_some_iff.mp hentry
  rfl

/-- Each kind has its configurations if and only if each entry of the document is read as described. -/
theorem described_iff (h : entries.mapM readEntry = some read) :
    (∀ kind, (under kind read).map NotificationConfiguration.description =
      (under kind entries).map ConfigurationDocument.description) ↔
      ∀ entry ∈ entries, entry.2.Readable entry.1 := by
  rw [readable_iff, h, Option.map_some, Option.some_inj]
  simp only [map_under]
  constructor
  · intro hunder
    refine eq_of_under ?_ hunder
    rw [List.map_map, List.map_map]
    exact kinds_read h
  · intro heq kind
    rw [heq]

end Entries

theorem readsNotifications_iff {parseString : Str → List XmlNode} {xmlString : Str} {document : NotificationDocument}
    (hparse : parseString xmlString = document.nodes) :
    ReadsNotifications (PutBucketNotificationConfigurationRequest.fromXml parseString {} xmlString) document ↔
      document.Readable := by
  have hread : PutBucketNotificationConfigurationRequest.fromXml parseString {} xmlString =
      (document.configurations.mapM PutBucketNotificationConfigurationRequest.readEntry).map fun entries =>
        entries.foldl PutBucketNotificationConfigurationRequest.append {} := by
    rw [PutBucketNotificationConfigurationRequest.fromXml, hparse, NotificationDocument.nodes,
      getRootNode_nodes (by decide)]
    simp only [XmlNode.childNodes]
    rw [Spaced.foldlM_nodes PutBucketNotificationConfigurationRequest.add_filler,
      PutBucketNotificationConfigurationRequest.foldlM_add]
    rfl
  rw [hread, ReadsNotifications]
  rcases hentries : document.configurations.mapM PutBucketNotificationConfigurationRequest.readEntry with _ | entries
  · rw [NotificationDocument.Readable, readable_iff, hentries]
    simp
  · rw [NotificationDocument.Readable, ← described_iff hentries]
    simp only [Option.map_some, Option.some_inj, exists_eq_left',
      PutBucketNotificationConfigurationRequest.configurations_foldl_append]
    exact forall_congr' fun kind => by cases kind <;> rfl

/-! ### Deleted keys -/

theorem ObjectElement.innerText_node (object : ObjectElement) : object.node.innerText =
    XmlNode.innerTexts (Spaced.nodes (fun other => leaf other.1 other.2) object.before) ++ (object.key ++
      XmlNode.innerTexts (Spaced.nodes (fun other => leaf other.1 other.2) object.after)) := by
  rw [node, XmlNode.innerText, XmlNode.innerTexts_append, XmlNode.innerTexts, XmlNode.innerText_leaf]

/-- What is read of an object is its key if nothing else in it has a text. -/
theorem ObjectElement.innerText_node_iff (object : ObjectElement) : object.node.innerText = object.key ↔
    ∀ other ∈ object.others, (other.node fun other => leaf other.1 other.2).innerText = [] := by
  rw [others, List.forall_mem_append, ← Spaced.innerTexts_nodes_eq_nil, ← Spaced.innerTexts_nodes_eq_nil,
    innerText_node]
  constructor
  · intro h
    have hlen := congrArg List.length h
    rw [List.length_append, List.length_append] at hlen
    exact ⟨List.length_eq_zero_iff.mp (by omega), List.length_eq_zero_iff.mp (by omega)⟩
  · rintro ⟨hbefore, hafter⟩
    rw [hbefore, hafter, List.nil_append, List.append_nil]

theorem keys_foldl : ∀ (objectNodes : List XmlNode) (request : DeleteObjectsRequest),
    (objectNodes.foldl (fun request objectNode => { request with keys := request.keys ++ [objectNode.innerText] })
      request).keys = request.keys ++ objectNodes.map XmlNode.innerText
  | [], request => (List.append_nil _).symm
  | objectNode :: objectNodes, request => by
    rw [List.foldl_cons, keys_foldl objectNodes, List.map_cons, List.append_assoc, List.singleton_append]

/-- Each child gives a key, so the keys are right only if each child is an object. -/
theorem texts_eq_keys_iff : ∀ {items : List (Spaced DeleteElement)},
    (Spaced.nodes DeleteElement.node items).map XmlNode.innerText = (elements items).filterMap DeleteElement.key? ↔
      ∀ item ∈ items, ∃ object : ObjectElement, item = .element (.object object) ∧
        ∀ other ∈ object.others, (other.node fun other => leaf other.1 other.2).innerText = []
  | [] => by simp [Spaced.nodes]
  | item :: items => by
    have hle : ((elements items).filterMap DeleteElement.key?).length ≤ items.length :=
      (List.length_filterMap_le _ _).trans (Spaced.length_elements_le items)
    have hlen : ((Spaced.nodes DeleteElement.node items).map XmlNode.innerText).length = items.length := by
      rw [List.length_map, Spaced.nodes, List.length_map]
    rw [List.forall_mem_cons, ← texts_eq_keys_iff, Spaced.nodes, List.map_cons, List.map_cons, ← Spaced.nodes]
    rcases item with filler | element | data
    · refine iff_of_false (fun h => ?_) (by simp)
      have hlength := congrArg List.length h
      rw [Spaced.elements_filler, List.length_cons, hlen] at hlength
      omega
    · rw [Spaced.elements_element, List.filterMap_cons, DeleteElement.key?, List.cons.injEq]
      refine and_congr_left fun _ => ?_
      rw [Spaced.node, DeleteElement.node, element.innerText_node_iff]
      simp
    · refine iff_of_false (fun h => ?_) (by simp)
      have hlength := congrArg List.length h
      rw [Spaced.elements_element, List.filterMap_cons_none rfl, List.length_cons, hlen] at hlength
      omega

theorem readsKeys_iff {parseString : Str → List XmlNode} {xmlString : Str} {document : DeleteDocument}
    (hparse : parseString xmlString = document.nodes) :
    (DeleteObjectsRequest.fromXml parseString {} xmlString).keys = document.keys ↔ document.Readable := by
  rw [DeleteObjectsRequest.fromXml, hparse, DeleteDocument.nodes, getRootNode_nodes (by decide)]
  simp only [XmlNode.childNodes]
  rw [keys_foldl, List.nil_append, DeleteDocument.keys, texts_eq_keys_iff]
  rfl

/-- A notification document is read as it is described if and only if its events have names that are read as
    such, and each of its filters is empty or is one of the few whose first nodes happen to be read as its rules.
    The keys of a `Delete` document are read if and only if it has objects only, without other texts in them. -/
theorem documents_read_iff (parseString : Str → List XmlNode) (xmlString : Str) :
    (∀ document : NotificationDocument, parseString xmlString = document.nodes →
      (ReadsNotifications (PutBucketNotificationConfigurationRequest.fromXml parseString {} xmlString) document ↔
        document.Readable)) ∧
    ∀ document : DeleteDocument, parseString xmlString = document.nodes →
      ((DeleteObjectsRequest.fromXml parseString {} xmlString).keys = document.keys ↔ document.Readable) :=
  ⟨fun _ hparse => readsNotifications_iff hparse, fun _ hparse => readsKeys_iff hparse⟩

/-- A filter with one rule, and nothing between its elements. -/
def imagesFilter : FilterElement := { s3Key := some [.element { name := .keyPrefix, value := str "images/" }] }

theorem objectCreated_ne_nil : str "s3:ObjectCreated:*" ≠ [] := by decide

/-- The elements of a configuration without an ID. -/
def elementsOf (arn : Str) : List (Spaced ConfigurationElement) :=
  [.element (.arn arn), .element (.filter imagesFilter),
    .element (.event ⟨str "s3:ObjectCreated:*", objectCreated_ne_nil⟩)]

theorem elementsOf_oneId (arn : Str) : ((elements (elementsOf arn)).filterMap ConfigurationElement.id?).length ≤ 1 :=
  Nat.zero_le 1

theorem elementsOf_oneFilter (arn : Str) :
    ((elements (elementsOf arn)).filterMap ConfigurationElement.filter?).length ≤ 1 := Nat.le_refl 1

def configurationOf (arn : Str) : ConfigurationDocument where
  items := elementsOf arn
  oneId := elementsOf_oneId arn
  oneArn := rfl
  oneFilter := elementsOf_oneFilter arn

def queueDocument : NotificationDocument where
  items := [.element (.configuration .queue (configurationOf (str "arn:queue")))]

def queueXml : Str :=
  str "<NotificationConfiguration><QueueConfiguration><Queue>arn:queue</Queue><Filter><S3Key>" ++
  str "<FilterRule><Name>prefix</Name><Value>images/</Value></FilterRule></S3Key></Filter>" ++
  str "<Event>s3:ObjectCreated:*</Event></QueueConfiguration></NotificationConfiguration>"

def keysDocument : DeleteDocument where
  items := [.element (.object { key := str "a.txt", oneKey := by decide }),
    .element (.object { key := str "b.txt", oneKey := by decide })]

def keysXml : Str :=
  str "<Delete><Object><Key>a.txt</Key></Object><Object><Key>b.txt</Key></Object></Delete>"

theorem documents_read_compact :
    ReadsNotifications (PutBucketNotificationConfigurationRequest.fromXml (fun _ => queueDocument.nodes) {} queueXml)
      queueDocument ∧
    (DeleteObjectsRequest.fromXml (fun _ => keysDocument.nodes) {} keysXml).keys = keysDocument.keys := by
  refine ⟨((documents_read_iff _ _).1 queueDocument rfl).mpr ?_,
    ((documents_read_iff _ _).2 keysDocument rfl).mpr ?_⟩
  · intro entry hentry
    obtain rfl : entry = (.queue, configurationOf (str "arn:queue")) := List.mem_singleton.mp hentry
    refine ⟨fun filter hfilter => ?_, fun event hevent => ?_⟩
    · obtain rfl : imagesFilter = filter := Option.some.inj hfilter
      exact ⟨.inl rfl, .inl rfl, rfl⟩
    · obtain rfl : event = str "s3:ObjectCreated:*" := List.mem_singleton.mp hevent
      exact .inr (by decide +kernel)
  · intro item hitem
    rcases List.mem_cons.mp hitem with rfl | hitem
    · exact ⟨_, rfl, nofun⟩
    · obtain rfl := List.mem_singleton.mp hitem
      exact ⟨_, rfl, nofun⟩

/-- The filter of a topic. -/
def topicDocument : NotificationDocument where
  items := [.element (.configuration .topic (configurationOf (str "arn:topic")))]

def topicXml : Str :=
  str "<NotificationConfiguration><TopicConfiguration><Topic>arn:topic</Topic><Filter><S3Key>" ++
  str "<FilterRule><Name>prefix</Name><Value>images/</Value></FilterRule></S3Key></Filter>" ++
  str "<Event>s3:ObjectCreated:*</Event></TopicConfiguration></NotificationConfiguration>"

def quietDocument : DeleteDocument where
  items := [.element (.quiet (str "true")), .element (.object { key := str "a.txt", oneKey := by decide })]

def quietXml : Str := str "<Delete><Quiet>true</Quiet><Object><Key>a.txt</Key></Object></Delete>"

/-- The rule of a topic becomes two rules, and a `Quiet` becomes a key. -/
theorem topic_rule_doubled :
    ((PutBucketNotificationConfigurationRequest.fromXml (fun _ => topicDocument.nodes) {} topicXml).map fun request =>
      request.topicConfigurations.map NotificationConfiguration.filterRules) =
        some [[⟨.keyPrefix, str "prefix"⟩, ⟨.keyPrefix, str "images/"⟩]] ∧
    ¬ ReadsNotifications
      (PutBucketNotificationConfigurationRequest.fromXml (fun _ => topicDocument.nodes) {} topicXml) topicDocument ∧
    (DeleteObjectsRequest.fromXml (fun _ => quietDocument.nodes) {} quietXml).keys = [str "true", str "a.txt"] ∧
    quietDocument.keys = [str "a.txt"] := by
  refine ⟨by decide +kernel, ?_, by decide +kernel, rfl⟩
  intro hreads
  have hreadable := (readsNotifications_iff rfl).mp hreads _ (List.mem_singleton_self _)
  obtain ⟨-, hrules⟩ := hreadable.1 imagesFilter rfl
  cases hrules

end AwsMock.Dto
