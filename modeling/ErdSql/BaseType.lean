import ErdSql.Text.Case

/-!
# Base types

The SQL types that a document may name, what they mean apart from any dialect, and which literals
they accept.
-/

namespace ErdSql

/-- What a base type means. -/
inductive TypeCategory where
  | smallInteger
  | integer
  | bigInteger
  | serial
  | bigSerial
  | decimal
  | float
  | double
  | text
  | char
  | varchar
  | blob
  | timestamp
  | timestampTZ
  | date
  | time
  | interval
  | boolean
  | uuid
  | json
  | xml
  | network
  | search
  | map
  deriving DecidableEq, Inhabited

/-- Which literals a category accepts. -/
inductive TypeClass where
  | other
  | numeric
  | text
  | json
  | uuid
  | boolean
  | temporal
  | binary
  deriving DecidableEq, Inhabited

/-- The name of a class. -/
def TypeClass.name : TypeClass → String
  | other => "other"
  | numeric => "numeric"
  | text => "text"
  | json => "json"
  | uuid => "uuid"
  | boolean => "boolean"
  | temporal => "temporal"
  | binary => "binary"

namespace TypeCategory

/-- Every category. -/
def all : List TypeCategory :=
  [smallInteger, integer, bigInteger, serial, bigSerial, decimal, float, double, text, char, varchar,
    blob, timestamp, timestampTZ, date, time, interval, boolean, uuid, json, xml, network, search, map]

/-- The class of a category. -/
def toClass : TypeCategory → TypeClass
  | smallInteger | integer | bigInteger | serial | bigSerial | decimal | float | double => .numeric
  | text | char | varchar | xml | network => .text
  | json | map => .json
  | uuid => .uuid
  | boolean => .boolean
  | timestamp | timestampTZ | date | time | interval => .temporal
  | blob => .binary
  | search => .other

/-- Whether a category holds whole numbers only. -/
def isInteger : TypeCategory → Bool
  | smallInteger | integer | bigInteger | serial | bigSerial => true
  | _ => false

end TypeCategory

namespace BaseType

/-- The base types by their upper-case names. -/
def catalogue : List (String × TypeCategory) := [
  ("SMALLINT", .smallInteger), ("INT2", .smallInteger),
  ("INT", .integer), ("INTEGER", .integer), ("INT4", .integer),
  ("BIGINT", .bigInteger), ("INT8", .bigInteger),
  ("SERIAL", .serial), ("SMALLSERIAL", .serial), ("BIGSERIAL", .bigSerial),
  ("DECIMAL", .decimal), ("NUMERIC", .decimal), ("MONEY", .decimal),
  ("REAL", .float), ("FLOAT", .float), ("FLOAT4", .float),
  ("DOUBLE", .double), ("FLOAT8", .double),
  ("TEXT", .text), ("CITEXT", .text), ("STRING", .text),
  ("CHAR", .char), ("CHARACTER", .char), ("VARCHAR", .varchar),
  ("BLOB", .blob), ("BYTEA", .blob),
  ("TIMESTAMP", .timestamp), ("DATETIME", .timestamp), ("TIMESTAMPTZ", .timestampTZ),
  ("DATE", .date), ("TIME", .time), ("TIMETZ", .time), ("INTERVAL", .interval),
  ("BOOL", .boolean), ("BOOLEAN", .boolean), ("UUID", .uuid),
  ("JSON", .json), ("JSONB", .json), ("XML", .xml),
  ("INET", .network), ("CIDR", .network), ("MACADDR", .network),
  ("TSVECTOR", .search), ("HSTORE", .map), ("MAP", .map)]

/-- The category of a base type, whose name may be in any case. -/
def category? (name : String) : Option TypeCategory :=
  catalogue.lookup (Text.upper name)

/-- Whether a name is that of a base type. -/
def isBase (name : String) : Bool :=
  (category? name).isSome

/-- The upper-case name of a base type, and any other name unchanged. -/
def canonical (name : String) : String :=
  if isBase name then Text.upper name else name

/-- Whether a base type stores keys with values. -/
def isMapLike (name : String) : Bool :=
  category? name == some .map

end BaseType

end ErdSql
