import BareMetal.Json.Basic
import BareMetal.Names

/-!
# Definitions of resources

The cluster learns the kinds of objects of an API group from definitions, which give their names,
their shape and the columns in which they are listed. A shape is written as a schema, in which
every property tells what it is for and whether it may be left out.
-/

namespace BareMetal.Cluster

/-- Whether a property may be left out. -/
inductive Presence
  | required
  /-- May be left out or `null`. -/
  | nullable
  /-- May be left out, and then has the value given. -/
  | withDefault (v : Json)
  /-- May be left out, and then is empty. -/
  | optional

/-- What is said about a property. -/
structure Property where
  name : String
  description : String
  presence : Presence := .required

/-- The shape of a value. -/
inductive Schema
  | text
  | flag
  /-- A whole number of 32 bits. -/
  | int32
  | number
  | choice (names : List String)
  | list (items : Schema)
  /-- An object with values of one shape. -/
  | dict (values : Schema)
  /-- An object with the properties given. -/
  | record (description : Option String) (properties : List (Property × Schema))

namespace Schema

/-- The member that names a type. -/
private def type (name : String) : List (String × Json) := [("type", .str name)]

/-- What the presence of a property adds to its schema. -/
private def presence : Presence → List (String × Json)
  | .required | .optional => []
  | .nullable => [("nullable", .bool true)]
  | .withDefault v => [("default", v)]

/-- The names of the properties that must be there, in order. -/
private def requiredNames (ps : List (Property × Schema)) : List String :=
  let names := ps.filterMap fun (p, _) => match p.presence with
    | .required => some p.name
    | _ => none
  names.mergeSort (· ≤ ·)

mutual

/-- The members of a schema. -/
def members : Schema → List (String × Json)
  | .text => type "string"
  | .flag => type "boolean"
  | .int32 => ("format", .str "int32") :: type "integer"
  | .number => ("format", .str "double") :: type "number"
  | .choice names => ("enum", .texts names) :: type "string"
  | .list items => ("items", .obj (members items)) :: type "array"
  | .dict values => ("additionalProperties", .obj (members values)) :: type "object"
  | .record description ps =>
    (description.map fun d => ("description", .str d)).toList ++
      [("properties", .obj (propertyMembers ps))] ++
      (if (requiredNames ps).isEmpty then [] else [("required", .texts (requiredNames ps))]) ++
      type "object"

/-- The schemas of properties. -/
def propertyMembers : List (Property × Schema) → List (String × Json)
  | [] => []
  | (p, s) :: rest =>
    (p.name, .obj (("description", .str p.description) :: presence p.presence ++ members s)) ::
      propertyMembers rest

end

/-- The schema as a value. -/
def toJson (s : Schema) : Json := .obj s.members

end Schema

/-- A column in which objects are listed. -/
structure Column where
  name : String
  type : String
  path : String

/-- What the cluster is told about a kind of objects of the group. -/
structure Definition where
  kind : String
  plural : String
  singular : String
  shortName : String
  columns : List Column
  spec : Property × Schema
  status : Property × Schema

namespace Definition

/-- The name of the definition. -/
def name (d : Definition) : String := s!"{d.plural}.{Names.apiGroup}"

/-- The schema of the objects. -/
def schema (d : Definition) : Json :=
  .obj (("title", .str d.kind) ::
    Schema.members (.record (some s!"Auto-generated derived type for {d.kind}Spec via `CustomResource`")
      [d.spec, d.status]))

/-- A column as a value. -/
private def column (c : Column) : Json :=
  .obj [("jsonPath", .str c.path), ("name", .str c.name), ("type", .str c.type)]

/-- The definition as a cluster object. -/
def toJson (d : Definition) : Json := .obj [
  ("apiVersion", .str "apiextensions.k8s.io/v1"),
  ("kind", .str "CustomResourceDefinition"),
  ("metadata", .obj [("name", .str d.name)]),
  ("spec", .obj [
    ("group", .str Names.apiGroup),
    ("names", .obj [("categories", .arr []), ("kind", .str d.kind), ("plural", .str d.plural),
      ("shortNames", .texts [d.shortName]), ("singular", .str d.singular)]),
    ("scope", .str "Cluster"),
    ("versions", .arr [.obj [
      ("additionalPrinterColumns", .arr (d.columns.map column)),
      ("name", .str Names.version),
      ("schema", .obj [("openAPIV3Schema", d.schema)]),
      ("served", .bool true), ("storage", .bool true),
      ("subresources", .obj [("status", .obj [])])]])])]

end Definition

/-! ## Properties -/

/-- A property that must be there. -/
def required (name description : String) (s : Schema) : Property × Schema := (⟨name, description, .required⟩, s)

/-- A property that may be left out or `null`. -/
def nullable (name description : String) (s : Schema) : Property × Schema := (⟨name, description, .nullable⟩, s)

/-- A property with a default. -/
def defaulted (name description : String) (v : Json) (s : Schema) : Property × Schema :=
  (⟨name, description, .withDefault v⟩, s)

/-- A property that may be left out. -/
def optional (name description : String) (s : Schema) : Property × Schema := (⟨name, description, .optional⟩, s)

end BareMetal.Cluster
