import RelayDescriptor.Field.Value

/-!
# Records

While a document is read its values are collected under the names of fields.  A
schema says which fields a record has and what they hold when nothing was
collected; it turns the collected values into a record.
-/

namespace RelayDescriptor

/-- The values collected so far, by the names of their fields. -/
abbrev Fields := OrderedMap String Value

namespace Fields

/-- The collection with a value written, which replaces an earlier one. -/
def write (name : String) (value : Value) (fields : Fields) : Fields :=
  OrderedMap.insert name value fields

/-- The collection with a value added at the end of a list, which is there from the first value
on. -/
def append (name : String) (value : Value) (fields : Fields) : Except Fault Fields :=
  match OrderedMap.find? name fields with
  | none => .ok (fields.write name (.list [value]))
  | some (.list values) => .ok (fields.write name (.list (values ++ [value])))
  | some other => .error (.interrupted (.noList other.typeName))

/-- The collection with the value of a line, which is added or written anew. -/
def put (repeated : Bool) (fields : Fields) (update : String × Value) : Except Fault Fields :=
  if repeated then fields.append update.1 update.2 else .ok (fields.write update.1 update.2)

end Fields

/-- The fields of a record. -/
structure Schema where
  name : String
  /-- The fields with their values when nothing is collected, in order. -/
  fields : List (String × Value)
  /-- What is done with the collected values before they become a record. -/
  arrange : Fields → Except Violation Fields

namespace Schema

/-- The names of the fields. -/
def fieldNames (schema : Schema) : List String := schema.fields.map Prod.fst

/-- The schema of fields that are absent unless collected. -/
def plain (name : String) (fields : List String) : Schema :=
  ⟨name, fields.map fun field => (field, .absent), .ok⟩

end Schema

/-- The decoded fields of a document. -/
structure Record where
  schema : String
  /-- All fields of the schema, in order. -/
  fields : List (String × Value)
  deriving Repr

namespace Record

/-- The value of a field. -/
def find? (record : Record) (name : String) : Option Value := OrderedMap.find? name record.fields

end Record

namespace Schema

/-- The names that the schema does not have. -/
def unknown (schema : Schema) (fields : Fields) : List String :=
  fields.keys.filter fun name => !schema.fieldNames.contains name

/-- The record of collected values that all belong to the schema. -/
def fill (schema : Schema) (fields : Fields) : Record :=
  ⟨schema.name, schema.fields.map fun (name, value) =>
    (name, (OrderedMap.find? name fields).getD value)⟩

/-- The record of collected values. -/
def build (schema : Schema) (fields : Fields) : Except Fault Record :=
  match schema.arrange fields with
  | .error violation => .error (.violation violation)
  | .ok arranged =>
      match schema.unknown arranged with
      | [] => .ok (schema.fill arranged)
      | names =>
          let fields := Text.sorted (names.map String.toList)
          .error (.interrupted (.undefinable (.unknownFields schema.name fields)))

end Schema

end RelayDescriptor
