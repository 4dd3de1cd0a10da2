/-
Categories of schemas: the ways in which a schema can describe a type.

* `Category`: the categories.
* `Category.holds`: whether a schema is of a category.
* `Document.categories`: all categories of a schema, never none.
-/
import SchemaDecl.Document.Basic

namespace SchemaDecl

/-- The ways in which a schema can describe a type. -/
inductive Category where
  | allOf
  | any
  | anyOf
  | boolean
  | customType
  | namedEnum
  | namedSchema
  | null
  | number
  | object
  | oneOf
  | reference
  | string
  | typedArray
  | union
  | unnamedEnum
  | unnamedSchema
  | untypedArray
deriving DecidableEq, Repr

namespace Category

/-- The categories that are looked for, in the order in which their types stand in an
intersection. -/
def sought : List Category :=
  [.allOf, .any, .anyOf, .boolean, .customType, .namedEnum, .namedSchema, .null, .number, .object,
   .oneOf, .reference, .string, .typedArray, .union, .unnamedEnum, .untypedArray]

variable (d : Document) (id : NodeId)

/-- The member `type` is a list. -/
def typeIsList : Bool := ((d.get? id "type").map d.isArray).getD false

/-- The schema offers several types by itself. -/
def isCompound : Bool := typeIsList d id || d.has id "anyOf" || d.has id "oneOf"

/-- The member `type` is missing, or it is one of the names. -/
def untypedOr (names : List String) : Bool :=
  !d.has id "type" || ((d.string? id "type").map names.contains).getD false

/-- A scalar type: its name is the member `type`, or a schema that offers no several types has a
default of that kind. A schema with listed values is none. -/
def isScalar (names : List String) (kind : Json.Scalar → Bool) : Bool :=
  !d.has id "enum" &&
    (((d.string? id "type").map names.contains).getD false ||
      !isCompound d id && ((d.scalar? id "default").map kind).getD false)

/-- Whether a schema is of a category. Custom types are found by `tsType` alone, and a schema is of
the category `unnamedSchema` if it is of no other. -/
def holds : Category → Bool
  | .allOf => d.has id "allOf"
  | .any => ((d.members? id).map List.isEmpty).getD false || d.string? id "type" == some "any"
  | .anyOf => d.has id "anyOf"
  | .boolean => isScalar d id ["boolean"] Json.Scalar.isBool
  | .customType => false
  | .namedEnum => d.has id "enum" && d.has id "tsEnumNames"
  | .namedSchema => d.has id "$id" && (d.has id "properties" || d.has id "patternProperties")
  | .null => d.string? id "type" == some "null"
  | .number => isScalar d id ["integer", "number"] Json.Scalar.isNumber
  | .object =>
    d.string? id "type" == some "object" &&
      !((d.get? id "additionalProperties").map d.isObject).getD false &&
      ["allOf", "anyOf", "oneOf", "patternProperties", "properties", "required"].all
        fun key => !d.has id key
  | .oneOf => d.has id "oneOf"
  | .reference => d.has id "$ref"
  | .string => isScalar d id ["string"] Json.Scalar.isString
  | .typedArray => untypedOr d id ["array"] && d.has id "items"
  | .union => typeIsList d id
  | .unnamedEnum =>
    !d.has id "tsEnumNames" && untypedOr d id ["boolean", "integer", "number", "string"] &&
      d.has id "enum"
  | .unnamedSchema => false
  | .untypedArray => d.string? id "type" == some "array" && !d.has id "items"

end Category

/-- The categories of a schema, in order. -/
def Document.categories (d : Document) (id : NodeId) : List Category :=
  if d.has id "tsType" then [.customType]
  else match Category.sought.filter (Category.holds d id) with
    | [] => [.unnamedSchema]
    | found => found

end SchemaDecl
