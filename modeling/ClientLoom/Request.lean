import ClientLoom.EndpointTypes
import ClientLoom.PathTemplate
import ClientLoom.Text.Literal

/-!
# Requests

The method of the client class that performs the request of an endpoint.  A token of the path is
filled from the parameter of its name; parameters that no token uses are sent as query parameters.
-/

namespace ClientLoom

open Text (objectKey propertyRead templateChars)

/-- The parameters that are sent beside the path. -/
inductive QueryArgument
  | absent
  /-- All parameters as they are given. -/
  | whole
  /-- The parameters with these keys. -/
  | rest (keys : List String)
deriving DecidableEq

/-- A request. -/
structure Request where
  name : String
  method : HttpMethod
  path : List PathPart
  query : QueryArgument
  paramsType : Option String
  bodyType : Option String
  responseType : Option String
  forwardsBody : Bool

namespace Request

/-- The keys of the tokens of a path, from left to right. -/
def tokenKeys (parts : List PathPart) : List String :=
  parts.filterMap fun
    | .token key => some (String.ofList key)
    | .text _ => none

/-- The parameters that are sent beside a path. -/
def queryArgument (hasParams : Bool) (keys tokens : List String) : QueryArgument :=
  if !hasParams then .absent
  else if tokens.isEmpty then .whole
  else
    let rest := keys.filter fun key => !tokens.contains key
    if rest.isEmpty then .absent else .rest rest

/-- The request of an endpoint with its types; every token of the path needs a parameter. -/
def build (endpoint : EndpointSpec) (types : EndpointTypes) : Outcome Request :=
  let keys := endpoint.paramKeys
  let path := PathTemplate.parts endpoint.path.toList
  let tokens := tokenKeys path
  match tokens.find? fun key => !keys.contains key with
  | some key => .error (.unboundPathParam endpoint.name key)
  | none =>
    .ok
      { name := endpoint.name
        method := endpoint.method
        path := path
        query := queryArgument types.params.isSome keys tokens
        paramsType := types.paramsName
        bodyType := types.bodyName
        responseType := types.responseName
        forwardsBody := types.body.isSome && endpoint.method.acceptsBody }

/-- The types of the inputs: of the parameters, then of the body. -/
def typesUsed (request : Request) : List String :=
  request.paramsType.toList ++ request.bodyType.toList

/-- A part of the path inside a template literal. -/
def partChars : PathPart → List Char
  | .text cs => templateChars cs
  | .token key => '$' :: '{' :: ((propertyRead "params" (String.ofList key)).toList ++ ['}'])

/-- The path as a template literal, as characters. -/
def pathChars (parts : List PathPart) : List Char :=
  '\x60' :: (parts.flatMap partChars ++ ['\x60'])

/-- The list of typed inputs. -/
def signature (request : Request) : String :=
  ", ".intercalate
    ((request.paramsType.map ("params: " ++ ·)).toList ++
      (request.bodyType.map ("body: " ++ ·)).toList)

/-- The statement that collects the query parameters, if some of the parameters are left over. -/
def prelude? (request : Request) : Option String :=
  match request.query with
  | .rest keys =>
    let fields := keys.map fun key => objectKey key ++ ": " ++ propertyRead "params" key
    some ("const _params = \x7b " ++ ", ".intercalate fields ++ " \x7d;")
  | .absent | .whole => none

/-- The argument for the query parameters. -/
def queryCode? : QueryArgument → Option String
  | .absent => none
  | .whole => some "params"
  | .rest _ => some "_params"

/-- The arguments of the call. -/
def arguments (request : Request) : List String :=
  let path := String.ofList (pathChars request.path)
  let query := queryCode? request.query
  if request.forwardsBody then [path, query.getD "undefined", "body"] else path :: query.toList

/-- The type arguments of the call. -/
def typeArguments (request : Request) : List String :=
  request.responseType.getD "any" :: (if request.forwardsBody then request.bodyType.toList else [])

/-- The expression that performs the request. -/
def call (request : Request) : String :=
  "this.httpClient." ++ request.method.name ++ "<" ++
    ", ".intercalate request.typeArguments ++ ">(" ++ ", ".intercalate request.arguments ++ ")"

end Request

end ClientLoom
