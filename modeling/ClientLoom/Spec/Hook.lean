import ClientLoom.Json.Basic

/-!
# Hooks of an endpoint

An endpoint may ask for one data-fetching hook: a query, a paginated query or a mutation.  Each is
switched on with its default options or given an object of options.
-/

namespace ClientLoom

/-- A switch, or the options of what is switched on. -/
inductive Toggle (α : Type)
  | enabled (on : Bool)
  | options (value : α)

/-- The options in effect; none when the switch is off. -/
def Toggle.options? {α : Type} (default : α) : Toggle α → Option α
  | .enabled true => some default
  | .enabled false => none
  | .options value => some value

/-- The options of a query. -/
structure QueryOptions where
  defaultScript : Option String := none
  queryKey : Option String := none
  queryFn : Option String := none
  enabled : Option String := none
  strictParams : Bool := false

/-- The options of a paginated query. -/
structure InfiniteOptions where
  pageKey : String
  initialPageParam : Json
  getNextPageParam : String
  getPreviousPageParam : Option String := none
  defaultScript : Option String := none
  queryKey : Option String := none
  queryFn : Option String := none
  enabled : Option String := none
  strictParams : Bool := false

/-- The options of a mutation. -/
structure MutationOptions where
  defaultScript : Option String := none
  invalidateQueryKey : Option String := none
  invalidateEndpoint : Option String := none
  mutationKey : Option String := none
  mutationFn : Option String := none

/-- The one hook of an endpoint. -/
inductive Hook
  | none
  | query (options : QueryOptions)
  | infinite (options : InfiniteOptions)
  | mutation (options : MutationOptions)

end ClientLoom
