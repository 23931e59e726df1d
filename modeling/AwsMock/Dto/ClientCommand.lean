import AwsMock.Core.HttpUtils

/-!
# Client commands

`Dto::Common`: how a request is told apart by its user agent, headers and target. The random request id
that is used for a request without a `RequestId` header is a parameter.
-/

namespace AwsMock

open Lib

/-! ### `UserAgent` -/

inductive UserAgentType where
  | awsSdkJava1
  | awsSdkJava2
  | awsSdkCpp
  | awsCli
  | awsSdkUnknown
  deriving DecidableEq

/-- The first name that starts the string, in the order of the enumeration; the last name is empty. -/
def userAgentTypeFromString (userAgentType : Str) : UserAgentType :=
  if startsWith userAgentType (str "aws-sdk-java/1") then .awsSdkJava1
  else if startsWith userAgentType (str "aws-sdk-java/2") then .awsSdkJava2
  else if startsWith userAgentType (str "aws-sdk-cpp/2") then .awsSdkCpp
  else if startsWith userAgentType (str "aws-cli/2") then .awsCli
  else .awsSdkUnknown

/-- `clientPrompt` is set for the command line client only. -/
structure UserAgent where
  clientApplication : Str := []
  clientLanguage : Str := []
  clientOs : Str := []
  clientExecutableType : Str := []
  clientPrompt : Bool := false
  clientModule : Str := []
  clientCommand : Str := []
  contentType : Str := str "application/xml"
  type : UserAgentType
  deriving DecidableEq

/-- The command line client names its module and command in the twelfth word. -/
def cliUserAgent (parts : List Str) : Outcome Error UserAgent := do
  let clientApplication ← .get parts 0
  let clientLanguage ← .get parts 1
  let clientOs ← .get parts 2
  let clientExecutableType ← .get parts 3
  let clientPrompt ← .get parts 4
  let command ← .get parts 11
  let tmp1 ← .get (split (byte '#') command) 1
  let clientModule ← .get (split (byte '.') tmp1) 0
  let clientCommand ← .get (split (byte '.') tmp1) 1
  return { clientApplication := clientApplication, clientLanguage := clientLanguage,
           clientOs := clientOs, clientExecutableType := clientExecutableType,
           clientPrompt := clientPrompt = str "ON", clientModule := clientModule,
           clientCommand := clientCommand, type := .awsCli }

/-- The content type is that of the request, when it has one. -/
def withContentType (request : HttpRequest) (userAgent : UserAgent) : UserAgent :=
  if hasHeader request (str "Content-Type") then
    let json := contains (request.field (str "Content-Type")) (str "json")
    { userAgent with contentType := if json then str "json" else str "xml" }
  else userAgent

/-- The words of the `User-Agent` header. -/
def userAgentWords (request : HttpRequest) : List Str :=
  split (byte ' ') (request.field (str "User-Agent"))

/-- `UserAgent::FromRequest`. -/
def userAgentFromRequest (request : HttpRequest) : Outcome Error UserAgent :=
  if ¬ hasHeader request (str "User-Agent") then
    return { type := .awsSdkCpp, contentType := str "xml" }
  else if (userAgentWords request).length < 4 then
    .throws (.serviceException (str "Could not extract user agent DTO"))
  else do
    let type := userAgentTypeFromString (← .get (userAgentWords request) 0)
    if type = .awsCli then
      return withContentType request (← cliUserAgent (userAgentWords request))
    else
      let userAgent : UserAgent := { type := type }
      return withContentType request userAgent

/-! ### `SQSClientCommand` -/

inductive SqsCommandType where
  | createQueue
  | purgeQueue
  | getQueueAttributes
  | setQueueAttributes
  | getQueueUrl
  | tagQueue
  | listQueues
  | deleteQueue
  | sendMessage
  | receiveMessage
  | changeMessageVisibility
  | deleteMessage
  | deleteMessageBatch
  | unknown
  deriving DecidableEq

def sqsCommandTypeNames : List (SqsCommandType × Str) :=
  [(.createQueue, str "create-queue"), (.purgeQueue, str "purge-queue"),
    (.getQueueAttributes, str "get-queue-attributes"),
    (.setQueueAttributes, str "set-queue-attributes"), (.getQueueUrl, str "get-queue-url"),
    (.tagQueue, str "tag-queue"), (.listQueues, str "list-queues"),
    (.deleteQueue, str "delete-queue"), (.sendMessage, str "send-message"),
    (.receiveMessage, str "receive-message"),
    (.changeMessageVisibility, str "change-message-visibility"),
    (.deleteMessage, str "delete-message"), (.deleteMessageBatch, str "delete-message-batch")]

def sqsCommandTypeFromString (commandType : Str) : SqsCommandType :=
  ((sqsCommandTypeNames.find? fun it => equalsIgnoreCase commandType it.2).map Prod.fst).getD
    .unknown

/-- `isupper` in the C locale. -/
def isUpper (c : UInt8) : Bool := 65 ≤ c ∧ c ≤ 90

/-- `ToSnakeCase`: the first character of the empty string is its NUL. -/
def toSnakeCase : Str → Str
  | [] => [0]
  | c :: cs =>
    toLowerByte c :: cs.flatMap fun ch => if isUpper ch then [byte '-', toLowerByte ch] else [ch]

/-- The fields of `BaseClientCommand` and of `SQSClientCommand`. -/
structure SQSClientCommand where
  url : Str
  method : Verb
  headers : OrderedMap Str Str
  payload : Str
  contentType : Str
  contentLength : Int
  region : Str
  user : Str
  requestId : Str
  command : SqsCommandType
  deriving DecidableEq

variable (lib : PocoUri)

/-- The action of a form, or what follows the dot in the JSON target. -/
def headerAction (request : HttpRequest) (payload : Str) : Outcome Error Str :=
  let cType := request.field (str "Content-Type")
  if containsIgnoreCase cType (str "application/x-www-form-urlencoded") then
    getQueryParameterValueByName lib payload (str "Action")
  else if containsIgnoreCase cType (str "application/x-amz-json-1.0") then
    .get (split (byte '.') (request.field (str "X-Amz-Target"))) 1
  else return []

def getCommandFromHeader (request : HttpRequest) (payload : Str) : Outcome Error Str := do
  return toSnakeCase (← headerAction lib request payload)

/-- The command of the user agent goes before the one of the headers. -/
def sqsCommandName (request : HttpRequest) (userAgent : UserAgent) : Outcome Error Str :=
  if userAgent.clientCommand = [] then getCommandFromHeader lib request request.body
  else return userAgent.clientCommand

/-- `SQSClientCommand::FromRequest`. -/
def sqsClientCommandFromRequest (request : HttpRequest) (region user randomId : Str) :
    Outcome Error SQSClientCommand := do
  let userAgent ← userAgentFromRequest request
  let contentLength ← getContentLength request
  let commandName ← sqsCommandName lib request userAgent
  return { url := request.target, method := request.method, headers := getHeaders request,
           payload := request.body, contentType := getContentType request,
           contentLength := contentLength, region := region, user := user,
           requestId := getHeaderValue request (str "RequestId") randomId,
           command := sqsCommandTypeFromString commandName }

/-! ### `S3ClientCommand` -/

inductive S3CommandType where
  | createBucket
  | listBuckets
  | deleteBucket
  | listObjects
  | putObject
  | getObject
  | copyObject
  | moveObject
  | deleteObject
  | deleteObjects
  | createMultipartUpload
  | uploadPart
  | uploadPartCopy
  | completeMultipartUpload
  | abortMultipartUpload
  | listObjectVersions
  | bucketNotification
  | putBucketNotificationConfiguration
  | putBucketEncryption
  | unknown
  deriving DecidableEq

/-- The fields of `S3ClientCommand`; a command that no branch sets is not initialised. -/
structure S3ClientCommand where
  url : Str
  method : Verb
  contentType : Str
  contentLength : Int
  region : Str
  user : Str
  requestId : Str
  command : Option S3CommandType := none
  bucket : Str
  key : Str
  pfx : Str := []
  versionRequest : Bool
  notificationRequest : Bool
  multipartRequest : Bool
  uploads : Bool
  uploadPartCopy : Bool
  partNumber : Bool
  copyRequest : Bool
  encryptionRequest : Bool
  uploadId : Str
  deriving DecidableEq

/-- `IsS3HostStyle`. -/
def isS3HostStyle (request : HttpRequest) : Bool :=
  hasHeader request (str "Host") ∧ contains (request.field (str "Host")) (str ".s3.")

/-- `GetS3BucketName`. -/
def getS3BucketName (request : HttpRequest) : Outcome Error Str :=
  if isS3HostStyle request then return subStringUntil (request.field (str "Host")) (str ".")
  else getPathParameter lib request.target 0

/-- `GetS3ObjectKey`. -/
def getS3ObjectKey (request : HttpRequest) : Outcome Error Str :=
  getPathParametersFromIndex lib request.target (if isS3HostStyle request then 0 else 1)

/-- `GetCommandFromUserAgent`. -/
def getCommandFromUserAgent (userAgent : UserAgent) (c : S3ClientCommand) : Option S3CommandType :=
  let clientCommand := userAgent.clientCommand
  let s3api := userAgent.clientModule = str "s3api"
  if clientCommand = str "mb" then some .createBucket
  else if clientCommand = str "ls" then
    if c.bucket = [] ∧ c.key = [] then some .listBuckets
    else if c.bucket ≠ [] then some .listObjects
    else none
  else if clientCommand = str "cp" then
    match c.method with
    | .put => if c.multipartRequest then some .uploadPart else some .putObject
    | .get => some .getObject
    | .post =>
      if c.multipartRequest ∧ c.uploadId = [] then some .createMultipartUpload
      else some .completeMultipartUpload
    | _ => none
  else if clientCommand = str "mv" then some .moveObject
  else if clientCommand = str "rb" then some .deleteBucket
  else if clientCommand = str "rm" then some .deleteObject
  else if s3api ∧ clientCommand = str "create-multipart-upload" then some .createMultipartUpload
  else if s3api ∧ clientCommand = str "upload-part" then some .uploadPart
  else if s3api ∧ clientCommand = str "complete-multipart-upload" then
    some .completeMultipartUpload
  else if s3api ∧ clientCommand = str "put-bucket-notification-configuration" then
    some .putBucketNotificationConfiguration
  else if s3api ∧ clientCommand = str "put-bucket-encryption" then some .putBucketEncryption
  else if s3api ∧ clientCommand = str "list-object-versions" then some .listObjectVersions
  else none

/-- The command of a request without one in its user agent, and the `prefix` of a listing. -/
def getCommandFromMethod (target : Str) (c : S3ClientCommand) : Outcome Error S3ClientCommand :=
  match c.method with
  | .get =>
    if c.bucket = [] ∧ c.key = [] then return { c with command := some .listBuckets }
    else if c.bucket ≠ [] ∧ c.key = [] then do
      if ← hasQueryParameter target (str "versions") then
        let pfx ← getQueryParameterValueByName lib target (str "prefix")
        return { c with pfx := pfx, command := some .listObjectVersions }
      else return { c with command := some .listObjects }
    else return { c with command := some .getObject }
  | .put =>
    if c.multipartRequest then
      return { c with command := some (if c.uploadPartCopy then .uploadPartCopy else .uploadPart) }
    else if c.encryptionRequest then return { c with command := some .putBucketEncryption }
    else if c.notificationRequest then return { c with command := some .bucketNotification }
    else if c.bucket ≠ [] ∧ c.key = [] then return { c with command := some .createBucket }
    else if c.bucket ≠ [] ∧ c.key ≠ [] then return { c with command := some .putObject }
    else return c
  | .post =>
    if c.bucket ≠ [] ∧ c.key ≠ [] then
      if c.uploads then return { c with command := some .createMultipartUpload }
      else if c.multipartRequest then return { c with command := some .completeMultipartUpload }
      else return c
    else if c.bucket ≠ [] then return { c with command := some .deleteObjects }
    else return c
  | .delete =>
    if c.multipartRequest then return { c with command := some .abortMultipartUpload }
    else if c.bucket ≠ [] ∧ c.key = [] then return { c with command := some .deleteBucket }
    else if c.bucket ≠ [] ∧ c.key ≠ [] then return { c with command := some .deleteObject }
    else return c
  | _ => return c

/-- What `FromRequest` does with the bucket and the key. -/
def s3ClientCommandOf (request : HttpRequest) (region user randomId : Str) (userAgent : UserAgent)
    (contentLength : Int) (bucket key : Str) : Outcome Error S3ClientCommand := do
  let uploads ← hasQueryParameter request.target (str "uploads")
  let uploadId ← getQueryParameterValueByName lib request.target (str "uploadId")
  let copySource := hasHeader request (str "x-amz-copy-source")
  let partNumber ← hasQueryParameter request.target (str "partNumber")
  let notificationRequest ← hasQueryParameter request.target (str "notification")
  let versionRequest ← hasQueryParameter request.target (str "versioning")
  let encryptionRequest ← hasQueryParameter request.target (str "encryption")
  let c : S3ClientCommand :=
    { url := request.target, method := request.method, contentType := getContentType request,
      contentLength := contentLength, region := region, user := user,
      requestId := getHeaderValue request (str "RequestId") randomId,
      bucket := bucket, key := key, versionRequest := versionRequest,
      notificationRequest := notificationRequest,
      multipartRequest := uploads ∨ uploadId ≠ [] ∨ partNumber, uploads := uploads,
      uploadPartCopy := copySource ∧ hasHeader request (str "x-amz-copy-source-range"),
      partNumber := partNumber, copyRequest := copySource,
      encryptionRequest := encryptionRequest, uploadId := uploadId }
  if userAgent.clientCommand ≠ [] then
    return { c with command := getCommandFromUserAgent userAgent c }
  else getCommandFromMethod lib request.target c

/-- `S3ClientCommand::FromRequest`. -/
def s3ClientCommandFromRequest (request : HttpRequest) (region user randomId : Str) :
    Outcome Error S3ClientCommand := do
  let userAgent ← userAgentFromRequest request
  let contentLength ← getContentLength request
  let bucket ← getS3BucketName lib request
  let key ← getS3ObjectKey lib request
  s3ClientCommandOf lib request region user randomId userAgent contentLength bucket key

end AwsMock
