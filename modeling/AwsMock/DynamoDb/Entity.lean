import AwsMock.Lib.Bytes
import AwsMock.Lib.OrderedMap

/-!
# The DynamoDB entities

Tables, items and attribute values as they are stored, and the requests that name an item. Time points
count nanoseconds.
-/

namespace AwsMock.DynamoDb

open Lib

/-- `Dto::DynamoDb::AttributeValue`. -/
structure Value where
  type : Str := []
  stringValue : Str := []
  stringSetValue : List Str := []
  numberValue : Str := []
  numberSetValue : List Str := []
  boolValue : Bool := false
  nullValue : Bool := false
  deriving DecidableEq

/-- `Entity::DynamoDb::AttributeValue`. -/
structure AttributeValue extends Value where
  created : Int
  modified : Int
  deriving DecidableEq

structure Table where
  oid : Str := []
  region : Str
  name : Str
  status : Str := []
  attributes : OrderedMap Str Str := ∅
  tags : OrderedMap Str Str := ∅
  keySchemas : OrderedMap Str Str := ∅
  created : Int
  modified : Int
  deriving DecidableEq

structure Item where
  oid : Str := []
  region : Str
  tableName : Str
  attributes : OrderedMap Str AttributeValue := ∅
  keys : OrderedMap Str AttributeValue := ∅
  created : Int
  modified : Int
  deriving DecidableEq

/-! ### Requests -/

/-- The fields of a request that the mapper reads; the body goes to the container as it came. -/
structure PutItemRequest where
  region : Str
  tableName : Str
  attributes : OrderedMap Str Value

structure DeleteItemRequest where
  region : Str
  tableName : Str
  /-- `key.keys`. -/
  key : OrderedMap Str Value

/-- What `system_clock::now` gives while an item is made: to the item and to each of its attributes. -/
structure Readings where
  created : Int
  modified : Int
  values : Str → Int × Int

/-- A value with its time points. -/
def Readings.stamp (readings : Readings) (name : Str) (value : Value) : AttributeValue :=
  { toValue := value, created := (readings.values name).1, modified := (readings.values name).2 }

namespace Mapper

/-- `Mapper::map(DeleteItemRequest)`. -/
def mapDelete (readings : Readings) (request : DeleteItemRequest) : Item :=
  { region := request.region, tableName := request.tableName, keys := request.key.mapVal readings.stamp,
    created := readings.created, modified := readings.modified }

/-- `Mapper::map(PutItemRequest)`. -/
def mapPut (readings : Readings) (request : PutItemRequest) : Item :=
  { region := request.region, tableName := request.tableName,
    attributes := request.attributes.mapVal readings.stamp,
    created := readings.created, modified := readings.modified }

end Mapper

end AwsMock.DynamoDb
