import AwsMock.Sqs.ExclusiveDelivery
import AwsMock.Sqs.DeletePrecision
import AwsMock.Sqs.Conservation
import AwsMock.Sqs.VisibilityRace
import AwsMock.Sqs.QueueUpdateRace
import AwsMock.Lib.Triple
import AwsMock.Sqs.HandOuts
import AwsMock.Sqs.Redrive
import AwsMock.Lib.View
import AwsMock.Sqs.RegionIsolation
import AwsMock.Gateway.Session
import AwsMock.Common.RangeResponse
import AwsMock.S3.Entity
import AwsMock.S3.MemoryDb
import AwsMock.S3.Database
import AwsMock.Core.NumberUtils
import AwsMock.S3.Service
import AwsMock.Lib.Ensures
import AwsMock.S3.Steps
import AwsMock.S3.Requests
import AwsMock.S3.Integrity
import AwsMock.S3.ChunkedUpload
import AwsMock.S3.Encryption
import AwsMock.Lib.Protocol
import AwsMock.S3.DataFiles
import AwsMock.S3.UnversionedBucket
import AwsMock.S3.VersionedBucket
import AwsMock.S3.Multipart
import AwsMock.Gateway.Shutdown
import AwsMock.Core.Uri
import AwsMock.Core.HttpUtils
import AwsMock.Core.Authorization
import AwsMock.Dto.ClientCommand
import AwsMock.Gateway.Routing
import AwsMock.Core.FormParameters
import AwsMock.Dto.S3Address
import AwsMock.Dto.NotificationConfiguration
import AwsMock.Core.Signature
import AwsMock.Core.SignatureBinding
import AwsMock.Core.SignatureAgreement
import AwsMock.S3.NotificationDispatch
import AwsMock.Sns.Database
import AwsMock.Sns.Service
import AwsMock.Sns.FanOut
import AwsMock.Ftp.Filesystem
import AwsMock.Ftp.UserDatabase
import AwsMock.Ftp.Confinement
import AwsMock.Ftp.Upload
import AwsMock.Lib.Pool
import AwsMock.Transfer.Database
import AwsMock.Transfer.Service
import AwsMock.Transfer.Convergence
import AwsMock.DynamoDb.Entity
import AwsMock.DynamoDb.MemoryDb
import AwsMock.DynamoDb.Database
import AwsMock.DynamoDb.Service
import AwsMock.DynamoDb.ItemStore
import AwsMock.Cognito.Database
import AwsMock.Cognito.Service
import AwsMock.Cognito.Integrity
import AwsMock.Lambda.Database
import AwsMock.Lib.Threads
import AwsMock.Lambda.ExclusiveInstance
import AwsMock.Lambda.Ledger
import AwsMock.Lambda.Compliance
import AwsMock.Lambda.LostUpdates
import AwsMock.Sqs.BatchDelete
import AwsMock.Sqs.Retention
import AwsMock.Core.QueueNames
import AwsMock.Sqs.ReceiveBound
import AwsMock.Sqs.DelayLaw
import AwsMock.Sqs.AttributeReadBack
import AwsMock.Lib.Naming
import AwsMock.SecretsManager.Service
import AwsMock.SecretsManager.ReadBack
import AwsMock.SecretsManager.WriteBack
import AwsMock.Kms.Service
import AwsMock.Kms.Steps
import AwsMock.Kms.Lifecycle
import AwsMock.Gateway.UniqueCreation
import AwsMock.SecretsManager.Steps
import AwsMock.S3.ObjectIsolation
import AwsMock.Core.QueryParameters
import AwsMock.Core.CanonicalRequest
import AwsMock.Dto.CommandSelection
import AwsMock.Sqs.AttributeDigest
import AwsMock.Lib.Bson
import AwsMock.Sqs.QueueEncodings
import AwsMock.Sqs.MessageDocument
import AwsMock.S3.RangeHeader
import AwsMock.S3.Answers
import AwsMock.S3.MultipartFrame
import AwsMock.S3.Listing
import AwsMock.S3.Deletion
import AwsMock.S3.NotificationUpdates
import AwsMock.S3.BucketDocument
import AwsMock.Sns.Encodings
import AwsMock.Sns.CleanUp
import AwsMock.Sns.SubscriptionHandles
import AwsMock.Lambda.LambdaDocument
import AwsMock.S3.CopyMove
import AwsMock.Lib.Xml
import AwsMock.Dto.XmlDocuments
import AwsMock.Lambda.Functions
import AwsMock.Lambda.Identity
import AwsMock.Core.Timer
import AwsMock.Ftp.CleanPath
import AwsMock.Core.Aes256
import AwsMock.Kms.Encryption
import AwsMock.Kms.Hmac
import AwsMock.Common.Tags
import AwsMock.Lib.Calendar
import AwsMock.Core.DateTimeUtils
import AwsMock.Core.MetricService
import AwsMock.Lib.PropertyFile
import AwsMock.Core.Configuration
import AwsMock.DynamoDb.Container
import AwsMock.Core.StringReplace
import AwsMock.Lib.Loops
import AwsMock.Lib.Occurrences
import AwsMock.Lib.Serial
import AwsMock.Sns.TopicTasks
import AwsMock.Sns.TopicUpdates
import AwsMock.Lib.Alike
import AwsMock.S3.HashCreator
import AwsMock.S3.HashUpdates
import AwsMock.S3.WorkerSafety
import AwsMock.DynamoDb.BackendAgreement
import AwsMock.Ftp.TransferEnd
import AwsMock.Ftp.ReceivedFiles
import AwsMock.Ftp.Authorization
import AwsMock.Manager.Restarts
import AwsMock.Ftp.Replies
import AwsMock.Cognito.ServiceAgreement
import AwsMock.SecretsManager.BackendAgreement
