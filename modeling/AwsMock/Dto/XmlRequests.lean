import AwsMock.Dto.NotificationConfiguration
import AwsMock.Lib.Related
import AwsMock.Lib.Xml

/-!
# XML requests

`FromXml` of `PutBucketNotificationConfigurationRequest` and of `DeleteObjectsRequest`, and the documents they
are for. A document is given by its elements and by what stands between them, and rendered as the nodes a DOM
parser returns. `none` is a child that is read and is not there.
-/

namespace AwsMock.Dto

open Lib
open Lib.XmlNode (leaf)
open Lib.Spaced (elements)

/-! ### The requests -/

namespace FilterRule

def fromXmlNode (rootNode : XmlNode) : Option FilterRule := do
  let first ← rootNode.firstChild
  let last ← rootNode.lastChild
  return { name := NameType.fromString first.innerText, value := last.innerText }

end FilterRule

/-- A `Filter` element. The three configurations differ in how they read what is below its first child. -/
def filterRulesFromXmlNode (rulesOf : XmlNode → Option (List FilterRule)) (child : XmlNode) :
    Option (List FilterRule) :=
  match child.firstChild with
  | none => some []
  | some filterNode => do
    let s3KeyNode ← filterNode.firstChild
    if s3KeyNode.hasChildNodes then rulesOf s3KeyNode else some []

/-- One round of the loop over the children of a configuration. -/
def NotificationConfiguration.addFromXmlNode (arnName : Str) (rulesOf : XmlNode → Option (List FilterRule))
    (configuration : NotificationConfiguration) (child : XmlNode) : Option NotificationConfiguration :=
  if child.nodeName = str "Id" then
    some { configuration with id := child.innerText }
  else if child.nodeName = arnName then
    some { configuration with arn := child.innerText }
  else if child.nodeName = str "Filter" then do
    let filterRules ← filterRulesFromXmlNode rulesOf child
    return { configuration with filterRules := configuration.filterRules ++ filterRules }
  else if child.nodeName = str "Event" then
    let events := child.childNodes.map fun eventNode => NotificationEventType.fromString eventNode.innerText
    some { configuration with events := configuration.events ++ events }
  else
    some configuration

def NotificationConfiguration.fromXmlNode (arnName : Str) (rulesOf : XmlNode → Option (List FilterRule))
    (rootNode : XmlNode) : Option NotificationConfiguration :=
  rootNode.childNodes.foldlM (addFromXmlNode arnName rulesOf) {}

/-- A queue's configuration makes one rule of the whole node. -/
def wholeRule (s3KeyNode : XmlNode) : Option (List FilterRule) := do
  let filterRule ← FilterRule.fromXmlNode s3KeyNode
  return [filterRule]

/-- The other two make one rule of each of its children. -/
def childRules (s3KeyNode : XmlNode) : Option (List FilterRule) :=
  s3KeyNode.childNodes.mapM FilterRule.fromXmlNode

def queueConfigurationFromXmlNode : XmlNode → Option NotificationConfiguration :=
  NotificationConfiguration.fromXmlNode (str "Queue") wholeRule

def topicConfigurationFromXmlNode : XmlNode → Option NotificationConfiguration :=
  NotificationConfiguration.fromXmlNode (str "Topic") childRules

def lambdaConfigurationFromXmlNode : XmlNode → Option NotificationConfiguration :=
  NotificationConfiguration.fromXmlNode (str "CloudFunction") childRules

/-- `getNodeByPath` of the path to the root element. -/
def getRootNode (name : Str) (pDoc : List XmlNode) : Option XmlNode := pDoc.find? fun node => node.nodeName = name

namespace PutBucketNotificationConfigurationRequest

def addFromXmlNode (request : PutBucketNotificationConfigurationRequest) (childNode : XmlNode) :
    Option PutBucketNotificationConfigurationRequest :=
  if childNode.nodeName = str "QueueConfiguration" then do
    let queueConfiguration ← queueConfigurationFromXmlNode childNode
    return { request with queueConfigurations := request.queueConfigurations ++ [queueConfiguration] }
  else if childNode.nodeName = str "TopicConfiguration" then do
    let topicConfiguration ← topicConfigurationFromXmlNode childNode
    return { request with topicConfigurations := request.topicConfigurations ++ [topicConfiguration] }
  else if childNode.nodeName = str "CloudFunctionConfiguration" then do
    let lambdaConfiguration ← lambdaConfigurationFromXmlNode childNode
    return { request with lambdaConfigurations := request.lambdaConfigurations ++ [lambdaConfiguration] }
  else
    some request

def fromXml (parseString : Str → List XmlNode) (request : PutBucketNotificationConfigurationRequest)
    (xmlString : Str) : Option PutBucketNotificationConfigurationRequest :=
  match getRootNode (str "NotificationConfiguration") (parseString xmlString) with
  | none => some request
  | some rootNode => rootNode.childNodes.foldlM addFromXmlNode request

end PutBucketNotificationConfigurationRequest

structure DeleteObjectsRequest where
  region : Str := []
  bucket : Str := []
  keys : List Str := []

def DeleteObjectsRequest.fromXml (parseString : Str → List XmlNode) (request : DeleteObjectsRequest)
    (xmlString : Str) : DeleteObjectsRequest :=
  match getRootNode (str "Delete") (parseString xmlString) with
  | none => request
  | some deleteNode =>
    deleteNode.childNodes.foldl
      (fun request objectNode => { request with keys := request.keys ++ [objectNode.innerText] }) request

/-! ### The documents -/

inductive ConfigurationKind where
  | queue
  | topic
  | cloudFunction
  deriving DecidableEq

namespace ConfigurationKind

def elementName : ConfigurationKind → Str
  | queue => str "QueueConfiguration"
  | topic => str "TopicConfiguration"
  | cloudFunction => str "CloudFunctionConfiguration"

/-- The name of the element with the ARN. -/
def arnName : ConfigurationKind → Str
  | queue => str "Queue"
  | topic => str "Topic"
  | cloudFunction => str "CloudFunction"

end ConfigurationKind

/-- `FilterRule`: `Name` and `Value`, in one of the two orders. -/
structure FilterRuleElement where
  before : List Filler := []
  between : List Filler := []
  after : List Filler := []
  nameFirst : Bool := true
  name : NameType
  value : Str

namespace FilterRuleElement

def first (rule : FilterRuleElement) : XmlNode :=
  if rule.nameFirst then leaf (str "Name") rule.name.toString else leaf (str "Value") rule.value

def second (rule : FilterRuleElement) : XmlNode :=
  if rule.nameFirst then leaf (str "Value") rule.value else leaf (str "Name") rule.name.toString

def node (rule : FilterRuleElement) : XmlNode :=
  .element (str "FilterRule")
    (rule.before.map Filler.node ++ rule.first :: (rule.between.map Filler.node ++ rule.second ::
      rule.after.map Filler.node))

def rule (rule : FilterRuleElement) : FilterRule where
  name := rule.name
  value := rule.value

end FilterRuleElement

/-- `Filter`: an `S3Key` with the rules, or none. -/
structure FilterElement where
  before : List Filler := []
  s3Key : Option (List (Spaced FilterRuleElement))
  after : List Filler := []

namespace FilterElement

def s3KeyNode (items : List (Spaced FilterRuleElement)) : XmlNode :=
  .element (str "S3Key") (Spaced.nodes FilterRuleElement.node items)

def node (filter : FilterElement) : XmlNode :=
  .element (str "Filter")
    (filter.before.map Filler.node ++ (filter.s3Key.map s3KeyNode).toList ++ filter.after.map Filler.node)

def filterRules (filter : FilterElement) : List FilterRule :=
  (elements (filter.s3Key.getD [])).map FilterRuleElement.rule

end FilterElement

inductive ConfigurationElement where
  | id (data : Str)
  | arn (data : Str)
  | filter (element : FilterElement)
  | event (data : {s : Str // s ≠ []})

namespace ConfigurationElement

def node (kind : ConfigurationKind) : ConfigurationElement → XmlNode
  | id data => leaf (str "Id") data
  | arn data => leaf kind.arnName data
  | filter element => element.node
  | event data => leaf (str "Event") data

def id? : ConfigurationElement → Option Str
  | id data => some data
  | _ => none

def arn? : ConfigurationElement → Option Str
  | arn data => some data
  | _ => none

def filter? : ConfigurationElement → Option FilterElement
  | filter element => some element
  | _ => none

def event? : ConfigurationElement → Option Str
  | event data => some data
  | _ => none

end ConfigurationElement

/-- What follows `s3:` in the name of an event, up to the next colon. -/
def eventName (event : Str) : Str :=
  (if str "s3:" <+: event then event.drop 3 else event).takeWhile (· ≠ byte ':')

/-- What a configuration says, with the names of its events. -/
structure ConfigurationDescription where
  id : Str
  arn : Str
  filterRules : List FilterRule
  events : List Str
  deriving DecidableEq

def NotificationConfiguration.description (configuration : NotificationConfiguration) : ConfigurationDescription where
  id := configuration.id
  arn := configuration.arn
  filterRules := configuration.filterRules
  events := configuration.events.map NotificationEventType.toString

/-- A configuration has one ARN, at most one ID and at most one filter. -/
structure ConfigurationDocument where
  items : List (Spaced ConfigurationElement)
  oneId : ((elements items).filterMap ConfigurationElement.id?).length ≤ 1
  oneArn : ((elements items).filterMap ConfigurationElement.arn?).length = 1
  oneFilter : ((elements items).filterMap ConfigurationElement.filter?).length ≤ 1

namespace ConfigurationDocument

def node (kind : ConfigurationKind) (document : ConfigurationDocument) : XmlNode :=
  .element kind.elementName (Spaced.nodes (ConfigurationElement.node kind) document.items)

def filter? (document : ConfigurationDocument) : Option FilterElement :=
  ((elements document.items).filterMap ConfigurationElement.filter?).head?

def events (document : ConfigurationDocument) : List Str :=
  (elements document.items).filterMap ConfigurationElement.event?

def description (document : ConfigurationDocument) : ConfigurationDescription where
  id := ((elements document.items).filterMap ConfigurationElement.id?).head?.getD []
  arn := ((elements document.items).filterMap ConfigurationElement.arn?).head?.getD []
  filterRules := (document.filter?.map FilterElement.filterRules).getD []
  events := document.events.map eventName

end ConfigurationDocument

inductive NotificationElement where
  | configuration (kind : ConfigurationKind) (document : ConfigurationDocument)
  | eventBridge

namespace NotificationElement

def node : NotificationElement → XmlNode
  | configuration kind document => document.node kind
  | eventBridge => .element (str "EventBridgeConfiguration") []

def configuration? : NotificationElement → Option (ConfigurationKind × ConfigurationDocument)
  | configuration kind document => some (kind, document)
  | eventBridge => none

end NotificationElement

/-- A `NotificationConfiguration` document, with the comments before and after its root element. -/
structure NotificationDocument where
  prolog : List Str := []
  items : List (Spaced NotificationElement)
  epilog : List Str := []

namespace NotificationDocument

def nodes (document : NotificationDocument) : List XmlNode :=
  document.prolog.map XmlNode.comment ++
    .element (str "NotificationConfiguration") (Spaced.nodes NotificationElement.node document.items) ::
      document.epilog.map XmlNode.comment

def configurations (document : NotificationDocument) : List (ConfigurationKind × ConfigurationDocument) :=
  (elements document.items).filterMap NotificationElement.configuration?

end NotificationDocument

/-- `Object`: its `Key`, and elements with other names such as `VersionId`. -/
structure ObjectElement where
  before : List (Spaced (Str × Str)) := []
  key : Str
  after : List (Spaced (Str × Str)) := []
  oneKey : ∀ other ∈ elements before ++ elements after, other.1 ≠ str "Key"

namespace ObjectElement

def others (object : ObjectElement) : List (Spaced (Str × Str)) := object.before ++ object.after

def node (object : ObjectElement) : XmlNode :=
  .element (str "Object")
    (Spaced.nodes (fun other => leaf other.1 other.2) object.before ++ leaf (str "Key") object.key ::
      Spaced.nodes (fun other => leaf other.1 other.2) object.after)

end ObjectElement

inductive DeleteElement where
  | object (element : ObjectElement)
  | quiet (data : Str)

namespace DeleteElement

def node : DeleteElement → XmlNode
  | object element => element.node
  | quiet data => leaf (str "Quiet") data

def key? : DeleteElement → Option Str
  | object element => some element.key
  | quiet _ => none

end DeleteElement

/-- A `Delete` document, with the comments before and after its root element. -/
structure DeleteDocument where
  prolog : List Str := []
  items : List (Spaced DeleteElement)
  epilog : List Str := []

namespace DeleteDocument

def nodes (document : DeleteDocument) : List XmlNode :=
  document.prolog.map XmlNode.comment ++
    .element (str "Delete") (Spaced.nodes DeleteElement.node document.items) :: document.epilog.map XmlNode.comment

def keys (document : DeleteDocument) : List Str := (elements document.items).filterMap DeleteElement.key?

end DeleteDocument

/-! ### What is read -/

/-- The configurations of a request of one kind. -/
def PutBucketNotificationConfigurationRequest.configurations (request : PutBucketNotificationConfigurationRequest) :
    ConfigurationKind → List NotificationConfiguration
  | .queue => request.queueConfigurations
  | .topic => request.topicConfigurations
  | .cloudFunction => request.lambdaConfigurations

/-- The request has the configurations of the document, in its order. -/
def ReadsNotifications (read : Option PutBucketNotificationConfigurationRequest) (document : NotificationDocument) :
    Prop :=
  ∃ request, read = some request ∧ ∀ kind,
    (request.configurations kind).map NotificationConfiguration.description =
      (under kind document.configurations).map ConfigurationDocument.description

namespace FilterRuleElement

/-- The first node of the rule gives the name of the rule. -/
def NameReadFirst (rule : FilterRuleElement) : Prop :=
  if rule.before = [] then rule.nameFirst ∨ NameType.fromString rule.value = rule.name else rule.name = .keyPrefix

/-- The last node of the rule gives its value. -/
def ValueReadLast (rule : FilterRuleElement) : Prop :=
  match rule.after.getLast? with
  | none => rule.nameFirst ∨ rule.name.toString = rule.value
  | some filler => filler.node.innerText = rule.value

/-- Each child of the rule has a text below it, and the rule is one of the two that are made of them. -/
def ReadTwice (rule : FilterRuleElement) : Prop :=
  rule.before = [] ∧ rule.between = [] ∧ rule.after = [] ∧ rule.value ≠ [] ∧
    if rule.nameFirst then rule.value = rule.name.toString else NameType.fromString rule.value = rule.name

end FilterRuleElement

/-- `S3Key` starts with a filler and has no rules, or it starts with a rule that is read as the rules it has. -/
def RulesReadable (kind : ConfigurationKind) (items : List (Spaced FilterRuleElement)) : Prop :=
  match items with
  | [] => False
  | .filler _ :: items => elements items = []
  | .element rule :: items =>
    if kind = .queue then rule.NameReadFirst ∧ rule.ValueReadLast ∧ elements items = []
    else rule.ReadTwice ∧ (elements items).map FilterRuleElement.rule = [⟨rule.name, rule.name.toString⟩]

/-- The first child of the filter is its `S3Key`. -/
def FilterElement.Readable (kind : ConfigurationKind) (filter : FilterElement) : Prop :=
  match filter.before, filter.s3Key with
  | [], none => filter.after = []
  | [], some items => RulesReadable kind items
  | _ :: _, _ => False

/-- The text is a name of an event, or the event is one that is taken for a name that is not known. -/
def EventReadable (event : Str) : Prop :=
  event ∈ eventTypeNames.map Prod.snd ∨ eventName event = str "ObjectCreated"

def ConfigurationDocument.Readable (kind : ConfigurationKind) (document : ConfigurationDocument) : Prop :=
  (∀ filter, document.filter? = some filter → filter.Readable kind) ∧
    ∀ event ∈ document.events, EventReadable event

def NotificationDocument.Readable (document : NotificationDocument) : Prop :=
  ∀ entry ∈ document.configurations, entry.2.Readable entry.1

/-- `Delete` has objects only, and an object no text but its key. -/
def DeleteDocument.Readable (document : DeleteDocument) : Prop :=
  ∀ item ∈ document.items, ∃ object : ObjectElement, item = .element (.object object) ∧
    ∀ other ∈ object.others, (other.node fun other => leaf other.1 other.2).innerText = []

end AwsMock.Dto
