import ClientLoom.Error

/-!
# HTTP methods

The methods that the generated client has.
-/

namespace ClientLoom

/-- A method of the generated client. -/
inductive HttpMethod
  | get
  | post
  | put
  | patch
  | delete
deriving DecidableEq

namespace HttpMethod

/-- The name of the method in the client. -/
def name : HttpMethod → String
  | .get => "get"
  | .post => "post"
  | .put => "put"
  | .patch => "patch"
  | .delete => "delete"

/-- The name in upper case, as it is written in configurations. -/
def display : HttpMethod → String
  | .get => "GET"
  | .post => "POST"
  | .put => "PUT"
  | .patch => "PATCH"
  | .delete => "DELETE"

/-- The method of a name in any mixture of upper and lower case ASCII letters. -/
def ofName? (name : String) : Option HttpMethod :=
  let lower := name.toList.map Char.toLower
  if lower = "get".toList then some .get
  else if lower = "post".toList then some .post
  else if lower = "put".toList then some .put
  else if lower = "patch".toList then some .patch
  else if lower = "delete".toList then some .delete
  else none

/-- The method with a name. -/
def parse (name : String) : Outcome HttpMethod :=
  match ofName? name with
  | some method => .ok method
  | none => .error (.validation "method" ("unsupported HTTP method '" ++ name ++ "'"))

/-- A request of this method carries a body. -/
def acceptsBody : HttpMethod → Bool
  | .get | .delete => false
  | .post | .put | .patch => true

end HttpMethod

end ClientLoom
