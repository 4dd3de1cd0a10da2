/-
Records: the types of object schemas.

The fields of a record come from the properties, then from the patterns of keys, then from the
definitions if those are asked for, and last there may be a field for all further properties. A
single pattern takes the place of that last field if nothing else is allowed.

* `Lower.record`: the record of an object schema.
-/
import SchemaDecl.Declaration.Key
import SchemaDecl.Types.Lowering

namespace SchemaDecl.Lower

/-- The owner of a pattern or a definition, as the notes call it. -/
def ownerText : Option String → String
  | some name => "`" ++ name ++ "`'s"
  | none => "an anonymous"

/-- The note on the type of a pattern. -/
def patternNote (owner : Option String) (key : String) : String :=
  "This interface was referenced by " ++ ownerText owner ++
    " JSON-Schema definition\nvia the `patternProperty` \"" ++ key ++ "\"."

/-- The note on the type of a definition. -/
def definitionNote (owner : Option String) (key : String) : String :=
  "This interface was referenced by " ++ ownerText owner ++
    " JSON-Schema\nvia the `definition` \"" ++ key ++ "\"."

/-- The schema says that further properties are allowed. -/
def allowsMore (d : Document) (id : NodeId) : Bool :=
  match d.get? id "additionalProperties" with
  | some more => d.isObject more || d.leafIs more true
  | none => false

/-- The one pattern of a schema describes all further properties. -/
def hasSinglePattern (d : Document) (id : NodeId) : Bool :=
  !allowsMore d id && (d.membersAt id "patternProperties").length == 1

/-- The fields of the properties. -/
def propertyFields (down : Descent) (id : NodeId) : Lower (List Field) := do
  let d ← document
  (d.membersAt id "properties").mapM fun (key, value) => do
    let type ← down value (some key)
    return { key, required := (d.strings id "required").contains key, type }

/-- The fields of the patterns. -/
def patternFields (down : Descent) (id : NodeId) (owner : Option String) : Lower (List Field) := do
  let d ← document
  let single := hasSinglePattern d id
  (d.membersAt id "patternProperties").mapM fun (key, value) => do
    let type ← down value (some key)
    annotate type (patternNote owner key)
    return {
      key := if single then indexKey else key
      required := single || (d.strings id "required").contains key
      isPattern := !single
      type }

/-- The fields of the definitions. -/
def definitionFields (down : Descent) (id : NodeId) (owner : Option String) :
    Lower (List Field) := do
  let d ← document
  (d.membersAt id "$defs").mapM fun (key, value) => do
    let type ← down value (some key)
    annotate type (definitionNote owner key)
    return { key, required := (d.strings id "required").contains key, isDefinition := true, type }

/-- The fields of the definitions, if those are asked for. -/
def wantedDefinitionFields (s : Settings) (down : Descent) (id : NodeId) (owner : Option String) :
    Lower (List Field) :=
  if s.unreachableDefinitions then definitionFields down id owner else pure []

/-- The type of all further properties, if there can be any. -/
def indexType? (s : Settings) (down : Descent) (id : NodeId) : Lower (Option TypeId) := do
  let d ← document
  match d.get? id "additionalProperties" with
  | some more =>
    if d.isObject more then return some (← down more (some indexKey))
    else if d.leafIs more false || hasSinglePattern d id then return none
    else return some (← allocTop s (some indexKey))
  | none =>
    if hasSinglePattern d id then return none
    else return some (← allocTop s (some indexKey))

/-- The record of an object schema that is called `name`. -/
def record (s : Settings) (down : Descent) (id : NodeId) (name : Option String) : Lower Shape := do
  let properties ← propertyFields down id
  let patterns ← patternFields down id name
  let definitions ← wantedDefinitionFields s down id name
  let index ← indexType? s down id
  let indexField := index.toList.map fun type => { key := indexKey, required := true, type : Field }
  let supers ← ((← document).listAt id "extends").mapM fun super => down super none
  return .record { fields := properties ++ patterns ++ definitions ++ indexField, supers }

end SchemaDecl.Lower
