import ClientLoom.Json.Printer
import ClientLoom.Request
import ClientLoom.Spec.Service
import ClientLoom.Template.Library

/-!
# Plans of hooks

A hook file is planned from the types and the request of an endpoint.  Cache key, fetcher and
enablement have defaults made from the inputs of the request; options of the configuration replace
them.  A plan imports from the service module the names that its text uses.
-/

namespace ClientLoom

open Text (objectKey propertyRead stringLiteral isIdentifierChar)

/-- A planned hook file. -/
structure HookPlan where
  hookName : String
  className : String
  queryImports : String
  serviceImports : List String
  defaultScript : Option String
  signature : String
  queryClient : Bool
  hookFn : String
  /-- The options of the hook, by name, in order. -/
  options : List (String × String)

/-- What a hook is planned from. -/
structure HookContext where
  service : ServiceIdent
  types : EndpointTypes
  request : Request

namespace HookPlan

/-- The path of a hook file in the output. -/
def path (plan : HookPlan) : String :=
  "queries/" ++ plan.className ++ "/" ++ plan.hookName ++ ".ts"

/-- The context of the template of a hook file. -/
def context (plan : HookPlan) : Json :=
  .object [
    ("hook_name", .string plan.hookName),
    ("class_name", .string plan.className),
    ("query_imports", .string plan.queryImports),
    ("service_imports", .string (", ".intercalate plan.serviceImports)),
    ("default_script", .ofText? plan.defaultScript),
    ("signature", .string plan.signature),
    ("query_client", .bool plan.queryClient),
    ("hook_fn", .string plan.hookFn),
    ("options", .array (plan.options.map fun option =>
      .object [("name", .string option.1), ("value", .string option.2)]))]

/-- The text of a hook file. -/
def render (plan : HookPlan) : Outcome String :=
  Template.Library.builtin.render "hook" plan.context

/-- Looks for a name in a text, past `skip` characters; `before` is the character in front.  The
name has to stand alone, without an identifier character on either side.  Occurrences that overlap
an earlier one are passed over. -/
def findsName (name : List Char) (before : Option Char) (skip : Nat) : List Char → Bool
  | [] => false
  | c :: rest =>
    match skip with
    | skip + 1 => findsName name (some c) skip rest
    | 0 =>
      if name.isPrefixOf (c :: rest) then
        let after := ((c :: rest).drop name.length).head?
        (!before.any isIdentifierChar && !after.any isIdentifierChar) ||
          findsName name (some c) (name.length - 1) rest
      else findsName name (some c) 0 rest

/-- The name stands alone somewhere in the text. -/
def references (text name : String) : Bool :=
  findsName name.toList none 0 text.toList

/-- An input of a request: its name and its type. -/
structure Input where
  name : String
  type : Inferred

/-- The inputs of a request, in order. -/
def inputs (types : EndpointTypes) : List Input :=
  (types.params.map (Input.mk "params")).toList ++ (types.body.map (Input.mk "body")).toList

/-- What the default enablement checks of an input: the required fields of an object other than
`skip`, or the input as a whole. -/
def requiredReads (skip : Option String) (input : Input) : List String :=
  match input.type.rootFields? with
  | some fields =>
    ((requiredKeys fields).filter fun key => some key != skip).map (propertyRead input.name)
  | none => [input.name]

/-- The default enablement. -/
def enablement (reads : List String) : Option String :=
  if reads.isEmpty then none
  else some ("[" ++ ", ".intercalate reads ++ "].every((value) => value != null)")

/-- The type of an input of a hook: every field may be absent unless the hook is strict. -/
def inputType (strict : Bool) (type : String) : String :=
  if strict then type else "Partial<" ++ type ++ ">"

/-- An input as it is passed on. -/
def passed (strict : Bool) (input : Input) : String :=
  if strict then input.name else input.name ++ " as " ++ input.type.name

/-- An input in the cache key. -/
def keyCode (name : String) : String :=
  "JSON.stringify(" ++ name ++ ")"

/-- A list literal. -/
def listCode (codes : List String) : String :=
  "[" ++ ", ".intercalate codes ++ "]"

/-- The call of the request of an endpoint. -/
def requestCode (context : HookContext) (arguments : List String) : String :=
  context.service.instanceName ++ "." ++ context.request.name ++ "(" ++
    ", ".intercalate arguments ++ ")"

/-- The parts of a plan that differ between the kinds of hooks. -/
structure Draft where
  hookName : String
  hookFn : String
  defaultScript : Option String
  signature : String
  options : List (String × String)
  queryClient : Bool

/-- The text of a draft that may use names of the service module. -/
def Draft.usedText (draft : Draft) : String :=
  draft.signature ++ String.join (draft.options.map fun option => "\n" ++ option.2)

/-- The plan of a draft. -/
def ofDraft (context : HookContext) (draft : Draft) : HookPlan :=
  { hookName := draft.hookName
    className := context.service.className
    queryImports := if draft.queryClient then draft.hookFn ++ ", useQueryClient" else draft.hookFn
    serviceImports :=
      (context.request.typesUsed ++ [context.service.instanceName]).filter
        (references draft.usedText)
    defaultScript := draft.defaultScript
    signature := draft.signature
    queryClient := draft.queryClient
    hookFn := draft.hookFn
    options := draft.options }

/-- The plan of a query. -/
def query (context : HookContext) (options : QueryOptions) : HookPlan :=
  let strict := options.strictParams
  let name := context.request.name
  let inputs := inputs context.types
  let key := listCode (stringLiteral name :: inputs.map fun input => keyCode input.name)
  let fetch := "() => " ++ requestCode context (inputs.map (passed strict))
  let enabled := options.enabled <|> enablement (inputs.flatMap (requiredReads none))
  ofDraft context
    { hookName := "use" ++ Text.pascalCase name
      hookFn := "useQuery"
      defaultScript := options.defaultScript
      signature := ", ".intercalate (inputs.map fun input =>
        input.name ++ ": " ++ inputType strict input.type.name)
      options :=
        [("queryKey", options.queryKey.getD key), ("queryFn", options.queryFn.getD fetch)] ++
          (enabled.map (Prod.mk "enabled")).toList
      queryClient := false }

/-- The parameters of a paginated query, without the page. -/
def pagedSignature (options : InfiniteOptions) (params : Inferred) : String :=
  let others :=
    match params.rootFields? with
    | some fields => fields.any fun field => field.key != options.pageKey
    | none => false
  "params: Omit<" ++ inputType options.strictParams params.name ++ ", " ++
    stringLiteral options.pageKey ++ ">" ++ (if others then "" else " = \x7b\x7d")

/-- The parameters in the cache key of a paginated query, without the page. -/
def pagedKey (options : InfiniteOptions) : String :=
  "JSON.stringify(Object.fromEntries(Object.entries(params).filter(([key]) => key !== " ++
    stringLiteral options.pageKey ++ ")))"

/-- The parameters that a paginated query passes on, with the page. -/
def pagedArgument (options : InfiniteOptions) (params : Inferred) : String :=
  let spread :=
    if options.strictParams then "...params" else "...(params as " ++ params.name ++ ")"
  "\x7b " ++ spread ++ ", " ++ objectKey options.pageKey ++ ": pageParam \x7d"

/-- The first page: a text is an expression, any other value is written as JSON. -/
def firstPage : Json → String
  | .string code => code
  | value => value.compact

/-- The plan of a paginated query. -/
def infinite (context : HookContext) (options : InfiniteOptions) : HookPlan :=
  let strict := options.strictParams
  let name := context.request.name
  let params := context.types.params
  let body := (context.types.body.map (Input.mk "body")).toList
  let key := listCode (stringLiteral name ::
    ((params.map fun _ => pagedKey options).toList ++ body.map fun input => keyCode input.name))
  let fetch := "(\x7b pageParam \x7d) => " ++ requestCode context
    ((params.map (pagedArgument options)).toList ++ body.map (passed strict))
  let reads :=
    (params.map fun type => requiredReads (some options.pageKey) ⟨"params", type⟩).getD [] ++
      body.flatMap (requiredReads none)
  let enabled := options.enabled <|> enablement reads
  ofDraft context
    { hookName := "useInfinite" ++ Text.pascalCase name
      hookFn := "useInfiniteQuery"
      defaultScript := options.defaultScript
      signature := ", ".intercalate
        (("initialPageParam = " ++ firstPage options.initialPageParam) ::
          ((params.map (pagedSignature options)).toList ++ body.map fun input =>
            input.name ++ ": " ++ inputType strict input.type.name))
      options :=
        [("queryKey", options.queryKey.getD key), ("queryFn", options.queryFn.getD fetch),
          ("initialPageParam", "initialPageParam")] ++
          (enabled.map (Prod.mk "enabled")).toList ++
          [("getNextPageParam", options.getNextPageParam)] ++
          (options.getPreviousPageParam.map (Prod.mk "getPreviousPageParam")).toList
      queryClient := false }

/-- The cache key that a mutation makes stale. -/
def staleKey? (options : MutationOptions) : Option String :=
  options.invalidateQueryKey <|>
    options.invalidateEndpoint.map fun target => listCode [stringLiteral target]

/-- The function that performs a mutation; its inputs come as one object. -/
def mutate (context : HookContext) : String :=
  let inputs := inputs context.types
  let names := inputs.map Input.name
  if inputs.isEmpty then "() => " ++ requestCode context []
  else
    let typed := inputs.map fun input => input.name ++ ": " ++ input.type.name
    "(\x7b " ++ ", ".intercalate names ++ " \x7d: \x7b " ++ "; ".intercalate typed ++
      " \x7d) => " ++ requestCode context names

/-- What a mutation does when it settles. -/
def settled (key : String) : String :=
  "() => \x7b\n      queryClient.invalidateQueries(\x7b queryKey: " ++ key ++ " \x7d);\n    \x7d"

/-- The plan of a mutation. -/
def mutation (context : HookContext) (options : MutationOptions) : HookPlan :=
  let stale := staleKey? options
  ofDraft context
    { hookName := "useMutate" ++ Text.pascalCase context.request.name
      hookFn := "useMutation"
      defaultScript := options.defaultScript
      signature := ""
      options :=
        (options.mutationKey.map (Prod.mk "mutationKey")).toList ++
          [("mutationFn", options.mutationFn.getD (mutate context))] ++
          (stale.map fun key => ("onSettled", settled key)).toList
      queryClient := stale.isSome }

/-- The plan of the hook of an endpoint, if it has one. -/
def build (context : HookContext) (endpoint : EndpointSpec) : Outcome (Option HookPlan) := do
  match ← endpoint.hook with
  | .none => .ok none
  | .query options => .ok (some (query context options))
  | .infinite options => .ok (some (infinite context options))
  | .mutation options => .ok (some (mutation context options))

end HookPlan

end ClientLoom
