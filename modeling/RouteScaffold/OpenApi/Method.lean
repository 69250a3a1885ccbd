/-!
# Request methods

The eight methods an OpenAPI path item may have operations for.
-/

namespace RouteScaffold.OpenApi

/-- A request method. -/
inductive Method where
  | get
  | put
  | post
  | delete
  | options
  | head
  | patch
  | trace
  deriving DecidableEq, Repr, Inhabited

namespace Method

/-- All methods, in the order in which a path item declares them. -/
def all : List Method := [get, put, post, delete, options, head, patch, trace]

/-- The key of a method in a path item. -/
def name : Method → String
  | get => "get"
  | put => "put"
  | post => "post"
  | delete => "delete"
  | options => "options"
  | head => "head"
  | patch => "patch"
  | trace => "trace"

/-- The method whose key a text is. -/
def ofName? (text : String) : Option Method := all.find? (·.name = text)

/-- The name of a method as it stands in a request. -/
def upperName (method : Method) : String := method.name.toUpper

theorem mem_all (method : Method) : method ∈ all := by
  cases method <;> decide

end Method

end RouteScaffold.OpenApi
